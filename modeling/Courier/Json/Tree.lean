import Courier.Json.Number

set_option autoImplicit false

/-! # Document trees

A tree is what a document says, free of white space and spelling. What names the members of an object
is a parameter: in a `Value` the names are texts; in a `Draft`, which is still to be written, they are
data of any kind, and only some kinds have a text.
-/

namespace Courier.Json

/-- The content of a document, its members named by `κ`. -/
inductive Tree (κ : Type) where
  | null
  | boolean (b : Bool)
  | number (n : Number)
  | string (s : String)
  | array (items : List (Tree κ))
  | object (members : List (κ × Tree κ))
deriving Repr, BEq

/-- The content of a document that has been read, or that can be written. -/
abbrev Value := Tree String

namespace Tree

/-- The number of arrays and objects inside one another. -/
def depth {κ : Type} : Tree κ → Nat
  | .array items => depthOfItems items + 1
  | .object members => depthOfMembers members + 1
  | _ => 0
where
  /-- The largest depth among items. -/
  depthOfItems : List (Tree κ) → Nat
    | [] => 0
    | item :: items => max item.depth (depthOfItems items)
  /-- The largest depth among members. -/
  depthOfMembers : List (κ × Tree κ) → Nat
    | [] => 0
    | (_, item) :: members => max item.depth (depthOfMembers members)

/-- An integer of 64 bits, signed or not. -/
def natural {κ : Type} (n : UInt64) : Tree κ := .number (.natural n)

end Tree

/-! ## Drafts -/

/-- What may name a member of a draft. -/
inductive Key where
  | text (s : String)
  | integer (n : Int)
  | boolean (b : Bool)
  | absent
  | list (items : List Value)
deriving Repr, BEq

/-- A tree whose members may be named by data that has no text. -/
abbrev Draft := Tree Key

inductive DraftFault where
  /-- A member is named by something that has no text. -/
  | keyWithoutText
  /-- The data refuse to be written, for a reason of their own. -/
  | refused (reason : String)
deriving Repr, DecidableEq

def DraftFault.message : DraftFault → String
  | .keyWithoutText => "key must be a string"
  | .refused reason => reason

def Key.text? : Key → Option String
  | .text s => some s
  | .integer n => some (String.ofList (Number.integerText n))
  | .boolean b => some (if b then "true" else "false")
  | .absent => none
  | .list _ => none

namespace Draft

mutual

/-- A draft with every name turned into its text. -/
def settle : Draft → Except DraftFault Value
  | .null => .ok .null
  | .boolean b => .ok (.boolean b)
  | .number n => .ok (.number n)
  | .string s => .ok (.string s)
  | .array items => (settleItems items).map .array
  | .object members => (settleMembers members).map .object

def settleItems : List Draft → Except DraftFault (List Value)
  | [] => .ok []
  | item :: items => do return (← settle item) :: (← settleItems items)

def settleMembers : List (Key × Draft) → Except DraftFault (List (String × Value))
  | [] => .ok []
  | (key, item) :: members =>
    match key.text? with
    | none => .error .keyWithoutText
    | some name => do return (name, ← settle item) :: (← settleMembers members)

end

mutual

/-- A value as a draft: its names are texts. -/
def ofValue : Value → Draft
  | .null => .null
  | .boolean b => .boolean b
  | .number n => .number n
  | .string s => .string s
  | .array items => .array (ofItems items)
  | .object members => .object (ofMembers members)

def ofItems : List Value → List Draft
  | [] => []
  | item :: items => ofValue item :: ofItems items

def ofMembers : List (String × Value) → List (Key × Draft)
  | [] => []
  | (name, item) :: members => (.text name, ofValue item) :: ofMembers members

end

end Draft

end Courier.Json
