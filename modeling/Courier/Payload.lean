import Courier.Json.Shape
import Courier.Json.Tree

set_option autoImplicit false

/-! # Payloads

A payload is the wide text of a value. Whatever is wrong with a text that should be one, or with a draft
of one, is a fault of the payload.
-/

namespace Courier

open Json

inductive PayloadFault where
  | malformed (fault : SyntaxFault)
  | unwritable (fault : DraftFault)
deriving Repr, DecidableEq

def PayloadFault.message : PayloadFault → String
  | .malformed fault => s!"syntax error: {fault.message}"
  | .unwritable fault => s!"serialization failed: {fault.message}"

def Json.Shape.decode {α : Type} (shape : Shape α) (text : String) : Except PayloadFault α :=
  (readDocument shape.read text).mapError .malformed

def Json.Shape.encode {α : Type} (shape : Shape α) (a : α) : String := (shape.write a).wide

/-- The payload that `write` makes of data. -/
def encodeWith {α : Type} (write : α → Except DraftFault String) (a : α) : Except PayloadFault String :=
  (write a).mapError .unwritable

/-- The text of a draft, or what keeps it from having one. -/
def Json.Draft.text (draft : Draft) : Except DraftFault String := (Draft.settle draft).map Tree.wide

def Json.Draft.encode (draft : Draft) : Except PayloadFault String := encodeWith Draft.text draft

end Courier
