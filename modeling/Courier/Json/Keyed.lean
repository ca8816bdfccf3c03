import Courier.Json.Tree

set_option autoImplicit false

/-! # Drafts of maps

A map may be keyed by data that is no text. Its draft names the members by the keys, in the order of the
keys themselves and not of their texts.
-/

namespace Courier.Json

/-- Puts an entry into a list in the order of its keys, in the place of one under the same key. -/
def insertBy {κ α : Type} (order : κ → κ → Ordering) (key : κ) (a : α) :
    List (κ × α) → List (κ × α)
  | [] => [(key, a)]
  | (other, b) :: rest =>
    match order key other with
    | .lt => (key, a) :: (other, b) :: rest
    | .eq => (key, a) :: rest
    | .gt => (other, b) :: insertBy order key a rest

/-- The draft of a map; of two entries under one key the later one stays. -/
def Draft.ofMap {κ : Type} (order : κ → κ → Ordering) (name : κ → Key) (entries : List (κ × Value)) :
    Draft :=
  let sorted := entries.foldl (fun acc (key, v) => insertBy order key v acc) []
  .object (sorted.map fun (key, v) => (name key, Draft.ofValue v))

def Draft.byInteger : List (Int × Value) → Draft := ofMap compare .integer

/-- A map keyed by truth values; the false one comes first. -/
def Draft.byFlag : List (Bool × Value) → Draft := ofMap compare .boolean

/-- Compares texts that may be absent; an absent one comes first. -/
def compareOptional : Option String → Option String → Ordering
  | none, none => .eq
  | none, some _ => .lt
  | some _, none => .gt
  | some a, some b => compare a b

/-- A map keyed by texts that may be absent. -/
def Draft.byOptional : List (Option String × Value) → Draft :=
  ofMap compareOptional fun key => (key.map Key.text).getD .absent

/-- A map keyed by lists. Their order does not show, since no entry can be written. -/
def Draft.byList (entries : List (List Value × Value)) : Draft :=
  .object (entries.map fun (key, v) => (.list key, Draft.ofValue v))

/-- The finite doubles as numbers; what is no finite double has no number. -/
def Draft.ofDoubles (words : List UInt64) : Draft :=
  .array (words.map fun bits =>
    match Binary64.ofBits bits with
    | some x => .number (.double x)
    | none => .null)

end Courier.Json
