import Courier.Json.Record
import Courier.Proofs.Json.Shape

set_option autoImplicit false

/-! # Records that read back what they write

The members that are written for a record stand in the order of its fields, but some may be left out. So
the room that the fields have is filled field by field, and what stays empty is what the reader puts in by
itself. The order of the members plays no part in it, only that no two fields have one name.
-/

namespace Courier.Json

namespace Fields

/-! ## One field and the others -/

theorem names_sublist {types : List Type} (fields : Fields types) (row : Row types) :
    ((fields.members row).map Prod.fst).Sublist fields.names := by
  induction fields with
  | nil => exact .refl _
  | cons field fields ih =>
    obtain ⟨a, row⟩ := row
    rw [members]
    split
    · exact (ih row).cons _
    · exact (ih row).cons_cons _

theorem mem_names {types : List Type} (fields : Fields types) (row : Row types) {p : String × Value}
    (hp : p ∈ fields.members row) : p.1 ∈ fields.names :=
  (fields.names_sublist row).subset (List.mem_map_of_mem hp)

theorem fill_self {α : Type} {types : List Type} (field : Field α) (fields : Fields types) (depth : Nat)
    (slots : Slots types) (s : List Char) :
    (Fields.cons field fields).fill depth (none, slots) field.name s
      = (memberValue (field.shape.read depth) s).map fun (a, rest) => ((some a, slots), rest) :=
  if_pos rfl

theorem fill_other {α : Type} {types : List Type} {field : Field α} (fields : Fields types) (depth : Nat)
    (slot : Option α) (slots : Slots types) {name : String} (other : name ≠ field.name) (s : List Char) :
    (Fields.cons field fields).fill depth (slot, slots) name s
      = (fields.fill depth slots name s).map fun (slots, rest) => ((slot, slots), rest) :=
  if_neg other

/-- A field has the value that was read for it, or else the one of its declaration. -/
theorem collect_cons {α : Type} {types : List Type} {field : Field α} (fields : Fields types)
    {slot : Option α} (slots : Slots types) {a : α} (h : (slot <|> field.absence.inObject?) = some a) :
    (Fields.cons field fields).collect (slot, slots) = (fields.collect slots).map fun row => (a, row) := by
  obtain ⟨name, shape, absence, omitted⟩ := field
  cases slot with
  | some b =>
    obtain rfl : b = a := Option.some.inj h
    rfl
  | none =>
    cases absence with
    | refused => cases h
    | inObject b =>
      obtain rfl : b = a := Option.some.inj h
      rfl
    | anywhere b =>
      obtain rfl : b = a := Option.some.inj h
      rfl

/-- Members of the other fields leave the room of the first one as it is. -/
theorem chain_beside {α : Type} {types : List Type} {field : Field α} {fields : Fields types}
    {depth : Nat} (slot : Option α) {state final : Slots types} {parts : List (String × List Char)}
    (chain : Chain (fields.fill depth) state parts final) (others : ∀ p ∈ parts, p.1 ≠ field.name) :
    Chain ((Fields.cons field fields).fill depth) (slot, state) parts (slot, final) := by
  induction chain with
  | nil => exact .nil
  | @cons state next final name t parts advances _ ih =>
    obtain ⟨literal, value, ht, named, takes⟩ := advances
    have other : name ≠ field.name := others (name, t) List.mem_cons_self
    -- The member has another name than the first field, so it is read by the others.
    refine .cons ⟨literal, value, ht, named, ?_⟩ (ih fun p hp => others p (List.mem_cons_of_mem _ hp))
    intro rest ends
    rw [fill_other fields depth slot state other, takes rest ends]
    rfl

/-! ## All fields -/

/-- Each field is faithful, and one that is left out for a value is read as what is kept of the value. -/
inductive Faithful : {types : List Type} → Fields types → (Row types → Row types) → Nat → Prop where
  | nil {height : Nat} : Faithful .nil id height
  | cons {α : Type} {types : List Type} {field : Field α} {fields : Fields types} {keep : α → α}
      {keeps : Row types → Row types} {height : Nat} (faithful : field.shape.Faithful keep height)
      (left : ∀ a, field.omitted a = true → field.absence.inObject? = some (keep a))
      (more : Faithful fields keeps height) :
      Faithful (.cons field fields) (fun row => (keep row.1, keeps row.2)) height

theorem Faithful.written {α : Type} {types : List Type} {field : Field α} {fields : Fields types}
    {keep : α → α} {keeps : Row types → Row types} {height : Nat}
    (faithful : field.shape.Faithful keep height) (always : ∀ a, field.omitted a = false)
    (more : Faithful fields keeps height) :
    Faithful (.cons field fields) (fun row => (keep row.1, keeps row.2)) height := by
  refine .cons faithful (fun a left => ?_) more
  rw [always a] at left
  exact absurd left (by decide)

/-- The members of a row fill the room of the fields with what is kept of the row. -/
theorem Faithful.fill_collect {types : List Type} {fields : Fields types} {keep : Row types → Row types}
    {height : Nat} (h : fields.Faithful keep height) (distinct : fields.names.Nodup) {depth : Nat}
    (room : height ≤ depth) {layout : Layout} (sound : layout.Sound) (level : Nat) (row : Row types) :
    ∃ slots, Chain (fields.fill depth) fields.vacant
        ((fields.members row).map fun p => (p.1, Tree.renderMember layout level p)) slots ∧
      fields.collect slots = .ok (keep row) := by
  induction h with
  | nil => exact ⟨(), .nil, rfl⟩
  | @cons α types field fields keep keeps height faithful left _ ih =>
    obtain ⟨a, row⟩ := row
    obtain ⟨unused, distinct⟩ := List.nodup_cons.1 distinct
    obtain ⟨slots, chain, collected⟩ := ih distinct room row
    -- No two fields have one name, so the members after the first one go past its room.
    have others : ∀ p ∈ (fields.members row).map fun p => (p.1, Tree.renderMember layout level p),
        p.1 ≠ field.name := by
      intro p hp same
      obtain ⟨q, hq, rfl⟩ := List.mem_map.1 hp
      exact unused (same ▸ fields.mem_names row hq)
    have written : (Fields.cons field fields).members (a, row) = if field.omitted a
        then fields.members row else (field.name, field.shape.write a) :: fields.members row := rfl
    by_cases omitted : field.omitted a = true
    · -- Nothing is written for the field, and its room stays empty.
      refine ⟨(none, slots), ?_, ?_⟩
      · rw [written, if_pos omitted]
        exact chain_beside none chain others
      · rw [collect_cons fields slots (show (none <|> field.absence.inObject?) = _ from left a omitted),
          collected]
        rfl
    · -- The member fills the room, and the others are read beside it.
      refine ⟨(some (keep a), slots), ?_, ?_⟩
      · rw [written, if_neg omitted, List.map_cons]
        refine .cons (Shape.advances_renderMember fun rest ends => ?_)
          (chain_beside (some (keep a)) chain others)
        rw [vacant, fill_self, faithful.memberValue sound level room a rest ends]
        rfl
      · rw [collect_cons fields slots (show (some (keep a) <|> field.absence.inObject?) = _ from rfl),
          collected]
        rfl

end Fields

/-! ## Records -/

section Row

variable {α : Type} (record : Record α) {blanks : List Char} (hb : Blanks blanks) (depth : Nat) (s : List Char)

include hb

/-- A record may come as an object or as an array; the bracket decides. -/
theorem Record.readRow_object :
    record.readRow (depth + 1) (blanks ++ '{' :: s) = close endObject (record.fields.readMembers depth s) := by
  unfold readRow
  rw [Shape.afterSpace_blanks hb (by decide), if_neg (by decide), if_pos rfl]
  rfl

theorem Record.readRow_array :
    record.readRow (depth + 1) (blanks ++ '[' :: s)
      = close endArray (record.fields.readItems record.expectedItems depth 0 s) := by
  unfold readRow
  rw [Shape.afterSpace_blanks hb (by decide), if_pos rfl]
  rfl

end Row

/-- A record is read back if its fields are and no two of them have one name. What it keeps is what the
fields keep. -/
theorem Record.faithful {α : Type} {record : Record α} {keep : α → α}
    {keeps : Row record.types → Row record.types} {height : Nat}
    (h : record.fields.Faithful keeps height) (distinct : record.fields.names.Nodup)
    (built : ∀ a, record.build (keeps (record.row a)) = keep a) :
    record.shape.Faithful keep (height + 1) := by
  intro layout sound level depth a blanks room hb rest _
  obtain ⟨slots, chain, collected⟩ := h.fill_collect distinct (show height ≤ depth - 1 by omega) sound
    (level + 1) (record.row a)
  obtain ⟨s, hs, all⟩ := allMembers_enclose sound level rest chain
  have written : (record.shape.write a).render layout level ++ rest = '{' :: s := by
    show (Tree.object (record.fields.members (record.row a))).render layout level ++ rest = _
    rw [← hs, Tree.render_object, List.map_map]
    rfl
  have read : record.fields.readMembers (depth - 1) s = .ok (keeps (record.row a), '}' :: rest) := by
    unfold Fields.readMembers
    simp only [members_allMembers all, collected]
  have row : record.readRow depth ((blanks ++ (record.shape.write a).render layout level) ++ rest)
      = .ok (keeps (record.row a), rest) := by
    obtain ⟨depth, rfl⟩ : ∃ k, depth = k + 1 := ⟨depth - 1, by omega⟩
    rw [List.append_assoc, written, record.readRow_object hb, show record.fields.readMembers depth s = _ from read]
    simp only [close, endObject_close]
  show (record.readRow depth _).map _ = _
  rw [row, ← built a]
  rfl

end Courier.Json
