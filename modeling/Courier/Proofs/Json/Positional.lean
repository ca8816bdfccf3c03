import Courier.Proofs.Json.Collection

set_option autoImplicit false

/-! # Records given by the positions of their values

A record may be given as an array, which tells the value of a field by its position. Fields at the end may be left
out, if something stands for them. What is decoded follows from the texts of the items one by one
(`Record.decode_array_iff`), whatever blanks stand around them.
-/

namespace Courier.Json

/-- The value of a field is what the text that is told for it is decoded as, or what stands for the value if
nothing is told. -/
def DecodedOrElse {α : Type} (shape : Shape α) (left? : Option α) (told? : Option String) (a : α) : Prop :=
  match told? with
  | none => left? = some a
  | some value => shape.decode value = .ok a

/-- The members of an object tell a text for a name if it is the value of the only one of the name. -/
theorem decodedUnder_iff_orElse {α : Type} {entries : List Entry} {name : String} {told? : Option String}
    (told : valuesUnder name entries = told?.toList) (shape : Shape α) (left? : Option α) (a : α) :
    DecodedUnder entries name shape left? a ↔ DecodedOrElse shape left? told? a := by
  unfold DecodedUnder
  rw [told]
  cases told? with
  | none => exact Iff.rfl
  | some value => exact Iff.rfl

/-- Blanks around the text of a value do not count. -/
theorem Shape.AsDocument.decode_padded_iff {α : Type} {shape : Shape α} (h : shape.AsDocument nestingLimit)
    {t : List Char} (wellFormed : WellFormed t) {text : String} (padded : Shape.Padded t text) (a : α) :
    shape.decode text = .ok a ↔ shape.decode (String.ofList t) = .ok a := by
  obtain ⟨before, after, same, hb, ha⟩ := padded
  have ends : EndsPart after := endsPart_of_blanks ha
  rw [decode_eq_ok_iff, same]
  constructor
  · rintro ⟨rest, read, blank⟩
    exact ((h hb wellFormed ends (endsPart_of_blanks (dropSpace_eq_nil_iff.1 blank))).1 read).2
  · intro decoded
    exact ⟨after, (h hb wellFormed ends ends).2 ⟨rfl, decoded⟩, dropSpace_eq_nil_iff.2 ha⟩

namespace Fields

variable {types : List Type}

/-- The texts give each field its value, in the order of the fields, and there are no more of them. -/
def DecodedInOrder {types : List Type} (fields : Fields types) (texts : List String) (row : Row types) : Prop :=
  match fields, row with
  | .nil, () => texts = []
  | .cons field fields, (a, row) =>
    DecodedOrElse field.shape field.absence.inArray? texts.head? a ∧ fields.DecodedInOrder texts.tail row

theorem Ready.rowInOrder_iff {fields : Fields types} (h : fields.Ready nestingLimit) {items : List Item}
    {texts : List String} (told : List.Forall₂ Item.HasText items texts) (row : Row types) :
    fields.RowInOrder items row ↔ fields.DecodedInOrder texts row := by
  induction h generalizing items texts with
  | nil =>
    cases told with
    | nil => exact iff_of_true trivial rfl
    | cons first others => exact iff_of_false id (List.cons_ne_nil _ _)
  | cons reads unused others ih =>
    obtain ⟨a, row⟩ := row
    cases told with
    | nil => exact and_congr_right' (ih .nil row)
    | cons first others =>
      have value := reads.decode_padded_iff first.wellFormed first.value a
      exact and_congr value.symm (ih others row)

end Fields

/-- An array is decoded as a record exactly if its items give each field its value; the record is made of these
values. -/
theorem Record.decode_array_iff {α : Type} {record : Record α} (inside : record.fields.Ready (nestingLimit - 1))
    (alone : record.fields.Ready nestingLimit) {texts : List String} {text : String}
    (array : ArrayText texts text) (a : α) :
    record.shape.decode text = .ok a ↔ ∃ row, record.fields.DecodedInOrder texts row ∧ record.build row = a := by
  obtain ⟨before, within, after, items, same, hb, ha, parted, told⟩ := array
  have spaced : ∀ i ∈ items, i.Spaced := forall_mem_of_forall₂ told fun _ _ told => told.spaced
  have wellFormed : ∀ i ∈ items, WellFormed i.value := forall_mem_of_forall₂ told fun _ _ told => told.wellFormed
  have read : ∀ row rest tail, record.readRow nestingLimit
      ((before ++ '[' :: (within ++ ']' :: after)) ++ tail) = .ok (row, rest) ↔
        rest = after ++ tail ∧ record.fields.DecodedInOrder texts row := by
    intro row rest tail
    have split : (before ++ '[' :: (within ++ ']' :: after)) ++ tail
        = before ++ '[' :: (within ++ ']' :: (after ++ tail)) := by simp
    rw [split, ← alone.rowInOrder_iff told]
    show record.readRow (nestingLimit - 1 + 1) _ = _ ↔ _
    rw [record.readRow_array hb]
    exact inside.readItems_parted_iff spaced wellFormed parted
  have stops := fun tail => Record.read_iff_of_readRow fun row rest => read row rest tail
  have whole : text.toList = (before ++ '[' :: (within ++ ']' :: after)) ++ [] := by rw [same, List.append_nil]
  rw [Shape.decode_iff_of_stops ha stops whole]
  exact and_iff_right blanks_nil

end Courier.Json
