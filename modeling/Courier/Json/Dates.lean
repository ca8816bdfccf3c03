import Courier.Calendar.DateText
import Courier.Json.Shape

set_option autoImplicit false

/-! # Instants in a document

An instant stands in a document as its text. A text that is none is a fault of the record around it.
-/

namespace Courier.Json

def readInstant : Reader Instant := fun depth s =>
  match readText depth s with
  | .error fault => .error fault
  | .ok (text, rest) =>
    match DateText.parse text with
    | .ok t => .ok (t, rest)
    | .error reason => .error (.pending (.invalidDate text reason.message) rest)

def Shape.instant : Shape Instant := ⟨readInstant, fun t => .string (DateText.format t)⟩

end Courier.Json
