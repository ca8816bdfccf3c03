import Courier.Proofs.Json.Rendered
import Courier.Proofs.Objects
import Courier.Proofs.Payload
import Courier.Proofs.Table

set_option autoImplicit false

/-! # Records of two sides

One side writes a record and another one reads it, each with fields of its own. If both have fields of the same
names, in one order, then the reader gets for each field what its shape makes of the value that has been
written for the other field of the name, or what stands for it if nothing has been written
(`Record.decode_iff_of_renders`). The members may stand in any order, since only their names tell whose they are.
-/

namespace Courier.Json

/-! ## Members in any order -/

theorem DecodedUnder.perm {α : Type} {entries entries' : List Entry} (perm : entries.Perm entries') {name : String}
    {shape : Shape α} {left? : Option α} {a : α} (h : DecodedUnder entries name shape left? a) :
    DecodedUnder entries' name shape left? a := by
  have values : (valuesUnder name entries).Perm (valuesUnder name entries') := (perm.filter _).map _
  unfold DecodedUnder at h ⊢
  match found : valuesUnder name entries with
  | [] =>
    rw [found] at h values
    rw [values.nil_eq.symm]
    exact h
  | [value] =>
    rw [found] at h values
    rw [← List.singleton_perm.1 values]
    exact h
  | value :: value' :: others =>
    rw [found] at h
    exact h.elim

theorem Fields.RowFrom.perm {types : List Type} {fields : Fields types} {entries entries' : List Entry}
    (perm : entries.Perm entries') {row : Row types} (h : fields.RowFrom entries row) :
    fields.RowFrom entries' row := by
  induction fields with
  | nil => trivial
  | cons field fields ih => exact ⟨DecodedUnder.perm perm h.1, ih h.2⟩

/-! ## Fields of two sides -/

/-- With `b` one field is read when another of its name has been written for `a`. -/
def Field.PassesOn {α β : Type} (written : Field α) (layout : Layout) (a : α) (read : Field β) (b : β) : Prop :=
  if written.omitted a then read.absence.inObject? = some b
  else read.shape.decode (String.ofList ((written.shape.write a).render layout 1)) = .ok b

/-- What all fields are read with, each from the one that has been written in its place. -/
def Fields.PassesOn {types types' : List Type} (layout : Layout) (written : Fields types) (row : Row types)
    (read : Fields types') (row' : Row types') : Prop :=
  match written, row, read, row' with
  | .nil, (), .nil, () => True
  | .cons field fields, (a, row), .cons field' fields', (b, row') =>
    field.PassesOn layout a field' b ∧ fields.PassesOn layout row fields' row'
  | _, _, _, _ => False

/-- A field that is always written tells what the value in the document is decoded as. -/
theorem Field.passesOn_iff_of_written {α β : Type} {written : Field α} (always : ∀ a, written.omitted a = false)
    (layout : Layout) (a : α) (read : Field β) (b : β) :
    written.PassesOn layout a read b ↔
      read.shape.decode (String.ofList ((written.shape.write a).render layout 1)) = .ok b := by
  unfold Field.PassesOn
  rw [always a]
  exact Iff.rfl

/-- Where both sides have one shape, and a faithful one, the value is passed on. -/
theorem Field.passesOn_iff_eq {α : Type} {shape : Shape α} {height : Nat} (faithful : shape.Faithful id height)
    (room : height ≤ nestingLimit) {layout : Layout} (sound : layout.Sound) {name : String}
    {absence absence' : Absence α} {a b : α} :
    Field.PassesOn { name, shape, absence } layout a { name, shape, absence := absence' } b ↔ b = a := by
  rw [Field.passesOn_iff_of_written fun _ => rfl, faithful.decode_render room sound, Except.ok.injEq, id]
  exact eq_comm

theorem Fields.map_name_known {types : List Type} (fields : Fields types) :
    fields.known.map Known.name = fields.names := by
  induction fields with
  | nil => rfl
  | cons field fields ih =>
    rw [known, List.map_cons, ih]
    rfl

/-- A member that no field has the name of gives nothing to any of them. -/
theorem Fields.rowFrom_cons_other {types : List Type} {fields : Fields types} {e : Entry} {name : String}
    (named : e.name? = some name) (unused : name ∉ fields.names) (entries : List Entry) (row : Row types) :
    fields.RowFrom (e :: entries) row ↔ fields.RowFrom entries row := by
  refine rowFrom_congr (fun k hk => ?_) row
  have other : k.name ≠ name := by
    rintro rfl
    rw [← fields.map_name_known] at unused
    exact unused (List.mem_map_of_mem hk)
  rw [← List.singleton_append, valuesUnder_append, valuesUnder_other named other, List.nil_append]

/-- From the members that have been written for some fields the fields of the same names are read. -/
theorem Fields.rowFrom_iff_passesOn {types types' : List Type} {written : Fields types} {read : Fields types'}
    (names : read.names = written.names) (distinct : written.names.Nodup) (layout : Layout) (row : Row types)
    (row' : Row types') :
    read.RowFrom ((written.members row).map (Tree.entry layout 1)) row' ↔ written.PassesOn layout row read row' := by
  induction written generalizing types' with
  | nil =>
    cases read with
    | nil => exact Iff.rfl
    | cons field' fields' => cases names
  | cons field fields ih =>
    cases read with
    | nil => cases names
    | cons field' fields' =>
      obtain ⟨a, row⟩ := row
      obtain ⟨b, row'⟩ := row'
      obtain ⟨own, names⟩ := List.cons.inj names
      obtain ⟨unused, distinct⟩ := List.nodup_cons.1 distinct
      have others := ih names distinct row row'
      have nothing : valuesUnder field'.name ((fields.members row).map (Tree.entry layout 1)) = [] := by
        rw [own, valuesUnder, List.map_eq_nil_iff, List.filter_eq_nil_iff]
        intro e he told
        obtain ⟨p, hp, rfl⟩ := List.mem_map.1 he
        exact unused (Option.some.inj (of_decide_eq_true told) ▸ fields.mem_names row hp)
      show DecodedUnder _ field'.name field'.shape _ b ∧ fields'.RowFrom _ row' ↔ Field.PassesOn _ _ _ _ _ ∧ _
      rw [Fields.members, Field.PassesOn, DecodedUnder]
      by_cases omitted : field.omitted a = true
      · rw [if_pos omitted, if_pos omitted, nothing, others]
      · -- The first member goes to the first field, and the others do not look at it.
        have elsewhere := Fields.rowFrom_cons_other (e := Tree.entry layout 1 (field.name, field.shape.write a)) rfl
          (names ▸ unused) ((fields.members row).map (Tree.entry layout 1)) row'
        rw [if_neg omitted, if_neg omitted, List.map_cons, elsewhere, others, ← List.singleton_append,
          valuesUnder_append, nothing, own, valuesUnder_self rfl]
        exact Iff.rfl

/-! ## Records of two sides -/

/-- The text is written for the data of a record, on one line or on as many as there are parts, with the members
in any order. -/
def Record.Renders {α : Type} (record : Record α) (a : α) (text : String) : Prop :=
  ∃ members, members.Perm (record.fields.members (record.row a)) ∧
    (text = (Tree.object members).compact ∨ text = (Tree.object members).wide)

section Renders

variable {α : Type} (record : Record α) (a : α)

theorem Record.renders_wide : record.Renders a (record.shape.write a).wide :=
  ⟨_, .refl _, .inr rfl⟩

theorem Record.renders_sorted (distinct : record.fields.names.Nodup) :
    record.Renders a
      (Tree.object (Table.ofList (record.fields.members (record.row a))).entries).compact := by
  refine ⟨_, Table.entries_ofList_perm ?_, .inl rfl⟩
  exact distinct.sublist (record.fields.names_sublist _)

end Renders

/-- What has been written for a record of one side is decoded as the record of the other side that its fields
tell. -/
theorem Record.decode_iff_of_renders {α β : Type} (written : Record α) (read : Record β)
    (ready : read.fields.Ready (nestingLimit - 1)) (names : read.fields.names = written.fields.names)
    (distinct : written.fields.names.Nodup) {a : α} {tells : Row read.types → Prop}
    (told : ∀ layout : Layout, layout.Sound → ∀ row,
      written.fields.PassesOn layout (written.row a) read.fields row ↔ tells row)
    {text : String} (renders : written.Renders a text) (b : β) :
    read.shape.decode text = .ok b ↔ ∃ row, tells row ∧ read.build row = b := by
  obtain ⟨members, perm, layouts⟩ := renders
  obtain ⟨layout, sound, rfl⟩ : ∃ layout : Layout, layout.Sound ∧
      text = String.ofList ((Tree.object members).render layout 0) := by
    rcases layouts with rfl | rfl
    · exact ⟨.compact, Layout.sound_compact, rfl⟩
    · exact ⟨.wide, Layout.sound_wide, rfl⟩
  have entries := perm.map (Tree.entry layout 1)
  have named : ∀ e ∈ members.map (Tree.entry layout 1), e.name?.isSome := by
    intro e he
    obtain ⟨p, -, rfl⟩ := List.mem_map.1 he
    rfl
  rw [read.decode_object_iff ready (Tree.objectText_render sound members), and_iff_right named]
  refine exists_congr fun row => and_congr_left' ?_
  rw [← told layout sound row, ← Fields.rowFrom_iff_passesOn names distinct]
  exact ⟨Fields.RowFrom.perm entries, Fields.RowFrom.perm entries.symm⟩

/-- Data of one shape are written without fault, and the other side reads the payload as data of its own, of which
it writes the same payload. -/
def Shape.PassesTo {α β : Type} (shape : Shape α) (other : Shape β) (passed : α → β) : Prop :=
  ∀ a, (Draft.ofValue (shape.write a)).encode = .ok (shape.encode a) ∧
    other.decode (shape.encode a) = .ok (passed a) ∧ other.encode (passed a) = shape.encode a

/-- A side that reads back what it writes reads what the other side writes in the same way. -/
theorem Shape.Faithful.passesTo {α β : Type} {shape : Shape α} {other : Shape β} {height : Nat}
    (h : other.Faithful id height) (room : height ≤ nestingLimit) {passed : α → β}
    (same : ∀ a, other.write (passed a) = shape.write a) : shape.PassesTo other passed := by
  intro a
  have read := h.decode_render room Layout.sound_wide 0 (passed a)
  rw [same a] at read
  exact ⟨Draft.encode_ofValue _, read, congrArg Tree.wide (same a)⟩

end Courier.Json
