import Courier.Json.Shape
import Courier.Json.Skip

set_option autoImplicit false

/-! # Records

A record is written as an object with one member per field, in the order in which the fields are
declared. It may be read from an object, its members in any order and others among them, or from an array
that gives the fields in their order. A field that the document leaves out has the value that its
declaration says, or is missing.
-/

namespace Courier.Json

/-- What a field holds when a document leaves it out. -/
inductive Absence (α : Type) where
  /-- It may not be left out. -/
  | refused
  /-- An object may leave it out, an array may not. -/
  | inObject (a : α)
  /-- Any document may leave it out. -/
  | anywhere (a : α)

/-- What an object that leaves the field out gives. -/
def Absence.inObject? {α : Type} : Absence α → Option α
  | .refused => none
  | .inObject a => some a
  | .anywhere a => some a

/-- What an array that leaves the field out gives. -/
def Absence.inArray? {α : Type} : Absence α → Option α
  | .anywhere a => some a
  | _ => none

/-- A field of a record: its name, how its value stands in a document, what it holds when it is left
out, and for which values writing leaves it out. -/
structure Field (α : Type) where
  name : String
  shape : Shape α
  absence : Absence α := .refused
  omitted : α → Bool := fun _ => false

/-- The fields of a record, in order, with the types of their values. -/
inductive Fields : List Type → Type 1 where
  | nil : Fields []
  | cons {α : Type} {types : List Type} (field : Field α) (fields : Fields types) :
    Fields (α :: types)

/-- One value per type. -/
def Row : List Type → Type
  | [] => Unit
  | α :: types => α × Row types

/-- Room for one value per type. -/
def Slots : List Type → Type
  | [] => Unit
  | α :: types => Option α × Slots types

namespace Fields

def names {types : List Type} : Fields types → List String
  | .nil => []
  | .cons field fields => field.name :: fields.names

/-- Room for each field, without a value yet. -/
def vacant {types : List Type} : Fields types → Slots types
  | .nil => ()
  | .cons _ fields => (none, fields.vacant)

/-- Reads a member, from its colon on, into the room of its field. A member that no field has the name of
is passed over; a field that has its value already may not get another. -/
def fill {types : List Type} (fields : Fields types) (depth : Nat) (slots : Slots types)
    (name : String) (s : List Char) : Scan (Slots types) :=
  match fields, slots with
  | .nil, () => (memberValue (fun s => (skip s).map fun rest => ((), rest)) s)
  | .cons field fields, (slot, slots) =>
    if name = field.name then
      match slot with
      | some _ => .error (.pending (.duplicateField name) s)
      | none =>
        (memberValue (field.shape.read depth) s).map fun (a, rest) => ((some a, slots), rest)
    else (fields.fill depth slots name s).map fun (slots, rest) => ((slot, slots), rest)

/-- The values of an object that has been read to its end; the first field without one is missing. -/
def collect {types : List Type} : Fields types → Slots types → Except Cause (Row types)
  | .nil, () => .ok ()
  | .cons field fields, (slot, slots) =>
    match slot <|> field.absence.inObject? with
    | some a => (fields.collect slots).map fun row => (a, row)
    | none => .error (.missingField field.name)

/-- Reads the values of the fields from the items of an array, `count` of them read already. -/
def readItems {types : List Type} (fields : Fields types) (expected : String) (depth count : Nat)
    (s : List Char) : Scan (Row types) :=
  match fields with
  | .nil => .ok ((), s)
  | .cons field fields =>
    match nextItem (count == 0) s with
    | .error fault => .error fault
    | .ok (false, rest) =>
      match field.absence.inArray? with
      | none => .error (.pending (.tooFewItems count expected) rest)
      | some a => (fields.readItems expected depth (count + 1) rest).map fun (row, rest) =>
        ((a, row), rest)
    | .ok (true, rest) =>
      match field.shape.read depth rest with
      | .error fault => .error fault
      | .ok (a, rest) => (fields.readItems expected depth (count + 1) rest).map fun (row, rest) =>
        ((a, row), rest)

/-- Reads the values of the fields from the members of an object. -/
def readMembers {types : List Type} (fields : Fields types) (depth : Nat) (s : List Char) :
    Scan (Row types) :=
  match members (fields.fill depth) fields.vacant s with
  | .error fault => .error fault
  | .ok (slots, rest) =>
    match fields.collect slots with
    | .ok row => .ok (row, rest)
    | .error cause => .error (.pending cause rest)

/-- The members that are written for a row. -/
def members {types : List Type} : Fields types → Row types → List (String × Value)
  | .nil, () => []
  | .cons field fields, (a, row) =>
    if field.omitted a then fields.members row
    else (field.name, field.shape.write a) :: fields.members row

end Fields

/-- A record as a document holds it: its name, its fields, and the data they make up. -/
structure Record (α : Type) where
  name : String
  types : List Type
  fields : Fields types
  build : Row types → α
  row : α → Row types

namespace Record

variable {α : Type}

/-- What a fault says was expected. -/
def expected (record : Record α) : String := s!"struct {record.name}"

/-- What a fault says was expected of an array. -/
def expectedItems (record : Record α) : String :=
  s!"struct {record.name} with {record.fields.names.length} elements"

/-- Reads the row of a record, from an object or an array. -/
def readRow (record : Record α) : Reader (Row record.types) := fun depth => afterSpace fun c rest =>
  if c = '[' then
    enter (fun depth s => close endArray (record.fields.readItems record.expectedItems depth 0 s))
      depth (c :: rest)
  else if c = '{' then
    enter (fun depth s => close endObject (record.fields.readMembers depth s)) depth (c :: rest)
  else .error (mismatch record.expected (c :: rest))

/-- The shape of a record. -/
def shape (record : Record α) : Shape α where
  read depth s := (record.readRow depth s).map fun (row, rest) => (record.build row, rest)
  write a := .object (record.fields.members (record.row a))

end Record

end Courier.Json
