import Courier.Json.Shape

set_option autoImplicit false

/-! # Choices

Data that is one of a few named choices stands in a document as the name. The name may also be given as
that of the only member of an object, whose value is then `null`.
-/

namespace Courier.Json

/-- Choices, and what each is called. -/
structure Choices (α : Type) where
  all : List α
  name : α → String

def Choices.pick {α : Type} (choices : Choices α) : Scan String → Scan α
  | .error fault => .error fault
  | .ok (name, rest) =>
    match choices.all.find? fun a => choices.name a == name with
    | some a => .ok (a, rest)
    | none => .error (.before (.unknownChoice name (choices.all.map choices.name)) rest)

/-- Reads what follows the name of a choice in an object, to the closing bracket. -/
def endTagged (s : List Char) : Except Fault (List Char) := do
  let rest ← colon s
  let ((), rest) ← readNothing 0 rest
  match dropSpace rest with
  | [] => .error (.before .endInObject [])
  | c :: rest => if c = '}' then .ok rest else .error (.before .expectedValue (c :: rest))

def readTagged {α : Type} (choices : Choices α) (s : List Char) : Scan α :=
  match dropSpace s with
  | [] => .error (.within .endInObject [])
  | c :: rest =>
    if c = '"' then
      match choices.pick (Literal.read rest) with
      | .error fault => .error fault
      | .ok (a, rest) => (endTagged rest).map fun rest => (a, rest)
    else if c = '}' then .error (.within .expectedValue (c :: rest))
    else .error (.within .keyNotText (c :: rest))

def readChoice {α : Type} (choices : Choices α) : Reader α := fun depth => afterSpace fun c rest =>
  if c = '"' then choices.pick (Literal.read rest)
  else if c = '{' then enter (fun _ s => readTagged choices s) depth (c :: rest)
  else .error (.within .expectedValue (c :: rest))

/-- One of the choices, written by its name. -/
def Shape.choice {α : Type} (choices : Choices α) : Shape α :=
  ⟨readChoice choices, fun a => .string (choices.name a)⟩

end Courier.Json
