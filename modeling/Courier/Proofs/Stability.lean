import Courier.Proofs.Json.Settled
import Courier.Proofs.Payload

set_option autoImplicit false

/-! # Payloads that are read and written again

A payload may be read from many texts: blanks and escapes are free, members may come in any order and others
among them, a record may be an array, and dates need not be padded. All this is gone once it has been read:
the payload that is written for the data is read as the very same data, dates included (`Shape.Stable`). So
reading and writing again changes nothing from the second time on.
-/

namespace Courier

open Json

namespace Json.Shape

variable {α : Type} {shape : Shape α} {keep : α → α}

/-- Data that have been read from any text are written without fault, and their payload is read as the same
data. -/
def Stable (shape : Shape α) : Prop :=
  ∀ text a, shape.decode text = .ok a →
    (Draft.ofValue (shape.write a)).encode = .ok (shape.encode a) ∧ shape.decode (shape.encode a) = .ok a

theorem RoundTrips.stable (h : shape.RoundTrips keep) (settles : shape.Settles keep) : shape.Stable := by
  intro text a decoded
  obtain ⟨rest, read, -⟩ := decode_eq_ok_iff.1 decoded
  obtain ⟨written, back⟩ := h a
  rw [settles _ _ _ _ read] at back
  exact ⟨written, back⟩

theorem repository_settles : repository.Settles Repository.wholeSeconds := by
  have refused : ∀ t : Instant, (Absence.refused : Absence Instant).inObject? = some t →
      t.wholeSecond = t := by
    intro t h
    cases h
  have absent : ∀ t? : Option Instant, (Absence.anywhere none).inObject? = some t? →
      t?.map Instant.wholeSecond = t? := by
    intro t? h
    obtain rfl := Option.some.inj h
    rfl
  have fields : Repository.record.fields.Settles _ _ :=
    .cons (settles_id _) (fun _ _ => rfl) <|
    .cons (settles_id _) (fun _ _ => rfl) <|
    .cons (settles_id _) (fun _ _ => rfl) <|
    .cons instant_settles refused <|
    .cons (optional_settles instant_settles) absent <|
    .cons (settles_id _) (fun _ _ => rfl) .nil
  exact Record.settles fields fun _ => rfl

end Json.Shape

/-- Repositories, users, collections of both, and settings that have been read, whatever the text was, are
written without fault and read back as exactly the same. -/
theorem records_stable :
    Shape.repository.Stable ∧ Shape.user.Stable ∧ Shape.catalog.Stable ∧ Shape.users.Stable ∧
      Shape.settings.Stable := by
  refine ⟨?_, ?_, ?_, ?_, ?_⟩
  · exact (Shape.repository_faithful.roundTrips (by decide)).stable Shape.repository_settles
  · exact (Shape.user_faithful.roundTrips (by decide)).stable (Shape.settles_id _)
  · exact (Shape.catalog_faithful.roundTrips (by decide)).stable (Shape.table_settles Shape.repository_settles)
  · exact (Shape.users_faithful.roundTrips (by decide)).stable (Shape.settles_id _)
  · exact (Shape.settings_faithful.roundTrips (by decide)).stable (Shape.settles_id _)

/-- A repository that is given as an array, with a date that is a leap second and not padded. -/
theorem records_stable_of_array :
    ∃ r : Repository, r.lastChange.nano = nanosPerSecond ∧
      Shape.repository.decode " [\"a\", \"\\u0062\", \"\", \" +2011-6-5T1:2:60Z\", null]" = .ok r ∧
      Shape.repository.decode (Shape.repository.encode r) = .ok r := by
  have read : Shape.repository.decode " [\"a\", \"\\u0062\", \"\", \" +2011-6-5T1:2:60Z\", null]"
      = .ok ⟨"a", "b", "", ⟨1307235779, 1000000000, by decide, by decide⟩, none, false⟩ := by
    decide +kernel
  exact ⟨_, rfl, read, (records_stable.1 _ _ read).2⟩

end Courier
