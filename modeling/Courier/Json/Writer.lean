import Courier.Json.Tree
import Courier.Text.Hex

set_option autoImplicit false

/-! # Writing a value

A value has two texts: a compact one without blanks, and a wide one with every item and member on a line
of its own, indented by two spaces for each container around it. Both escape in a text only what must be
escaped.
-/

namespace Courier.Json

/-! ## Texts -/

def escape (c : Char) : List Char :=
  if c = '"' then ['\\', '"']
  else if c = '\\' then ['\\', '\\']
  else if c = '\x08' then ['\\', 'b']
  else if c = '\t' then ['\\', 't']
  else if c = '\n' then ['\\', 'n']
  else if c = '\x0c' then ['\\', 'f']
  else if c = '\r' then ['\\', 'r']
  else if c.toNat < 0x20 then
    ['\\', 'u', '0', '0', Hex.digit (c.toNat / 16), Hex.digit (c.toNat % 16)]
  else [c]

def textLiteral (s : String) : List Char := '"' :: (s.toList.flatMap escape ++ ['"'])

/-! ## Layouts -/

structure Layout where
  /-- What stands before an item, by the number of containers around it. -/
  newline : Nat → List Char
  /-- What parts a name from its value. -/
  colon : List Char

def Layout.compact : Layout := ⟨fun _ => [], [':']⟩

/-- Every item on a line of its own. -/
def Layout.wide : Layout := ⟨fun depth => '\n' :: List.replicate (2 * depth) ' ', [':', ' ']⟩

/-- The parts of a container between its brackets; without parts the brackets stand together. -/
def Layout.enclose (layout : Layout) (depth : Nat) (first last : Char) (parts : List (List Char)) :
    List Char :=
  match parts with
  | [] => [first, last]
  | part :: parts =>
    first :: (layout.newline (depth + 1) ++ part
      ++ parts.flatMap (fun part => ',' :: (layout.newline (depth + 1) ++ part))
      ++ layout.newline depth ++ [last])

mutual

/-- The text of a value inside `depth` containers. -/
def Tree.render (layout : Layout) (depth : Nat) : Value → List Char
  | .null => ['n', 'u', 'l', 'l']
  | .boolean true => ['t', 'r', 'u', 'e']
  | .boolean false => ['f', 'a', 'l', 's', 'e']
  | .number n => n.text
  | .string s => textLiteral s
  | .array items => layout.enclose depth '[' ']' (Tree.renderItems layout (depth + 1) items)
  | .object members => layout.enclose depth '{' '}' (Tree.renderMembers layout (depth + 1) members)

def Tree.renderItems (layout : Layout) (depth : Nat) : List Value → List (List Char)
  | [] => []
  | item :: items => Tree.render layout depth item :: Tree.renderItems layout depth items

def Tree.renderMembers (layout : Layout) (depth : Nat) :
    List (String × Value) → List (List Char)
  | [] => []
  | (name, item) :: members =>
    (textLiteral name ++ layout.colon ++ Tree.render layout depth item)
      :: Tree.renderMembers layout depth members

end

/-- A value on as many lines as it has parts. -/
def Tree.wide (v : Value) : String := String.ofList (v.render .wide 0)

def Tree.compact (v : Value) : String := String.ofList (v.render .compact 0)

end Courier.Json
