import Courier.Json.Dates
import Courier.Json.Record

set_option autoImplicit false

/-! # Stamps

A stamp names an instant, or the time between two.
-/

namespace Courier

open Json

/-- A named instant, with the instant up to which it holds, if there is one. -/
structure Stamp where
  name : String
  start : Instant
  stop : Option Instant
deriving Repr, DecidableEq

/-- How a stamp stands in a document. The second instant is written even when there is none. -/
def Stamp.record : Record Stamp where
  name := "Stamp"
  types := [String, Instant, Option Instant]
  fields :=
    .cons { name := "name", shape := .text } <|
    .cons { name := "at", shape := .instant } <|
    .cons { name := "until", shape := .optional .instant, absence := .anywhere none } .nil
  build := fun (name, start, stop, ()) => { name, start, stop }
  row s := (s.name, s.start, s.stop, ())

def Json.Shape.stamp : Shape Stamp := Stamp.record.shape

end Courier
