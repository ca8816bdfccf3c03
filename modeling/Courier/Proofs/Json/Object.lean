import Courier.Proofs.Json.Enclosed
import Courier.Proofs.Json.Members
import Courier.Proofs.Json.Record

set_option autoImplicit false

/-! # Objects that are read as records

What a record is read as depends on the members of the object alone, and of these on the ones that fields are
named for: each such name may occur once, and its value is what it would be decoded as by itself
(`Record.decode_object_iff`). The loop over the members follows the room of the fields, which holds what the
members so far have told (`Fields.FilledFrom`); its step is that of one member (`Fields.Ready.fill_iff`). All other
members are passed over.
-/

namespace Courier.Json

/-! ## What the members tell -/

def valuesUnder (name : String) (entries : List Entry) : List String :=
  (entries.filter fun e => e.name? = some name).map Entry.value

@[simp]
theorem valuesUnder_append (name : String) (entries entries' : List Entry) :
    valuesUnder name (entries ++ entries') = valuesUnder name entries ++ valuesUnder name entries' := by
  simp [valuesUnder]

theorem valuesUnder_self {e : Entry} {name : String} (h : e.name? = some name) :
    valuesUnder name [e] = [e.value] := by
  simp [valuesUnder, h]

theorem valuesUnder_other {e : Entry} {name other : String} (h : e.name? = some name)
    (ne : other ≠ name) : valuesUnder other [e] = [] := by
  simp [valuesUnder, h, ne.symm]

/-- The members give `a` under a name: it is what the value of the only member of the name is decoded as, or
what stands for the value if no member has the name. -/
def DecodedUnder {α : Type} (entries : List Entry) (name : String) (shape : Shape α) (left? : Option α) (a : α) :
    Prop :=
  match valuesUnder name entries with
  | [] => left? = some a
  | [value] => shape.decode value = .ok a
  | _ => False

/-- The room of a field holds what the members tell: nothing, or the value of the only one of its name. -/
def Field.FilledFrom {α : Type} (field : Field α) (entries : List Entry) (slot : Option α) : Prop :=
  match valuesUnder field.name entries, slot with
  | [], none => True
  | [value], some a => field.shape.decode value = .ok a
  | _, _ => False

namespace Field

variable {α : Type} {field : Field α} {entries : List Entry}

theorem filledFrom_nil : field.FilledFrom [] none := trivial

theorem FilledFrom.unique {slot slot' : Option α} (h : field.FilledFrom entries slot)
    (h' : field.FilledFrom entries slot') : slot = slot' := by
  unfold FilledFrom at h h'
  cases values : valuesUnder field.name entries with
  | nil =>
    rw [values] at h h'
    cases slot <;> cases slot' <;> simp_all
  | cons value others =>
    rw [values] at h h'
    cases others <;> cases slot <;> cases slot' <;> simp_all

/-- What the members so far have told is told by a part of them, if there is no fault in all. -/
theorem FilledFrom.before {more : List Entry} {slot : Option α} (h : field.FilledFrom (entries ++ more) slot) :
    ∃ slot', field.FilledFrom entries slot' := by
  unfold FilledFrom at h ⊢
  rw [valuesUnder_append] at h
  match values : valuesUnder field.name entries with
  | [] => exact ⟨none, trivial⟩
  | [value] =>
    rw [values] at h
    cases slot with
    | none => simp at h
    | some a =>
      cases others : valuesUnder field.name more with
      | nil => exact ⟨some a, by simpa [others] using h⟩
      | cons value' others' => simp [others] at h
  | value :: value' :: others =>
    rw [values] at h
    simp at h

theorem filledFrom_other {e : Entry} {name : String} (named : e.name? = some name) (ne : field.name ≠ name)
    (slot : Option α) : field.FilledFrom (entries ++ [e]) slot ↔ field.FilledFrom entries slot := by
  unfold FilledFrom
  rw [valuesUnder_append, valuesUnder_other named ne, List.append_nil]

/-- A member of the name of a field has to be the first one. -/
theorem filledFrom_self {e : Entry} (named : e.name? = some field.name) {slot : Option α}
    (h : field.FilledFrom entries slot) (next : Option α) :
    field.FilledFrom (entries ++ [e]) next ↔
      slot = none ∧ ∃ a, next = some a ∧ field.shape.decode e.value = .ok a := by
  unfold FilledFrom at h ⊢
  rw [valuesUnder_append, valuesUnder_self named]
  cases values : valuesUnder field.name entries with
  | nil =>
    rw [values] at h
    cases slot <;> cases next <;> simp_all
  | cons value others =>
    rw [values] at h
    cases others <;> cases slot <;> cases next <;> simp_all

/-- A field has what its room holds, or what stands for it. -/
theorem FilledFrom.decodedUnder_iff {slot : Option α} (h : field.FilledFrom entries slot) (a : α) :
    (slot <|> field.absence.inObject?) = some a ↔
      DecodedUnder entries field.name field.shape field.absence.inObject? a := by
  unfold FilledFrom at h
  unfold DecodedUnder
  cases values : valuesUnder field.name entries with
  | nil =>
    rw [values] at h
    cases slot <;> simp_all
  | cons value others =>
    rw [values] at h
    cases others <;> cases slot <;> simp_all

theorem exists_filledFrom {a : α} (h : DecodedUnder entries field.name field.shape field.absence.inObject? a) :
    ∃ slot, field.FilledFrom entries slot := by
  unfold DecodedUnder at h
  unfold FilledFrom
  cases values : valuesUnder field.name entries with
  | nil => exact ⟨none, trivial⟩
  | cons value others =>
    rw [values] at h
    cases others with
    | nil => exact ⟨some a, h⟩
    | cons value' others => exact h.elim

end Field

namespace Fields

/-- The room of each field holds what the members tell. -/
def FilledFrom {types : List Type} (fields : Fields types) (entries : List Entry) (slots : Slots types) : Prop :=
  match fields, slots with
  | .nil, () => True
  | .cons field fields, (slot, slots) => field.FilledFrom entries slot ∧ fields.FilledFrom entries slots

/-- The members give each field its value. -/
def RowFrom {types : List Type} (fields : Fields types) (entries : List Entry) (row : Row types) : Prop :=
  match fields, row with
  | .nil, () => True
  | .cons field fields, (a, row) =>
    DecodedUnder entries field.name field.shape field.absence.inObject? a ∧ fields.RowFrom entries row

variable {types : List Type} {entries : List Entry}

theorem filledFrom_nil (fields : Fields types) : fields.FilledFrom [] fields.vacant := by
  induction fields with
  | nil => trivial
  | cons field fields ih => exact ⟨field.filledFrom_nil, ih⟩

theorem FilledFrom.unique {fields : Fields types} {slots slots' : Slots types} (h : fields.FilledFrom entries slots)
    (h' : fields.FilledFrom entries slots') : slots = slots' := by
  induction fields with
  | nil => rfl
  | cons field fields ih =>
    obtain ⟨slot, slots⟩ := slots
    obtain ⟨slot', slots'⟩ := slots'
    exact Prod.ext (h.1.unique h'.1) (ih h.2 h'.2)

theorem FilledFrom.before {fields : Fields types} {more : List Entry} {slots : Slots types}
    (h : fields.FilledFrom (entries ++ more) slots) : ∃ slots', fields.FilledFrom entries slots' := by
  induction fields with
  | nil => exact ⟨(), trivial⟩
  | cons field fields ih =>
    obtain ⟨slot, slots⟩ := slots
    obtain ⟨slot', first⟩ := h.1.before
    obtain ⟨slots', others⟩ := ih h.2
    exact ⟨(slot', slots'), first, others⟩

theorem filledFrom_other {fields : Fields types} {e : Entry} {name : String} (named : e.name? = some name)
    (unused : name ∉ fields.names) (slots : Slots types) :
    fields.FilledFrom (entries ++ [e]) slots ↔ fields.FilledFrom entries slots := by
  induction fields with
  | nil => exact Iff.rfl
  | cons field fields ih =>
    obtain ⟨slot, slots⟩ := slots
    rw [names, List.mem_cons, not_or] at unused
    exact and_congr (field.filledFrom_other named (Ne.symm unused.1) slot) (ih unused.2 slots)

theorem FilledFrom.collect_iff {fields : Fields types} {slots : Slots types} (h : fields.FilledFrom entries slots)
    (row : Row types) : fields.collect slots = .ok row ↔ fields.RowFrom entries row := by
  induction fields with
  | nil => exact iff_of_true rfl trivial
  | cons field fields ih =>
    obtain ⟨slot, slots⟩ := slots
    obtain ⟨a, row⟩ := row
    have first := h.1.decodedUnder_iff a
    have others := ih h.2 row
    constructor
    · intro collected
      rw [Fields.collect] at collected
      split at collected
      · next b found =>
        obtain ⟨row', rest, same⟩ := Except.map_eq_ok_iff.1 collected
        obtain ⟨rfl, rfl⟩ := Prod.mk.inj same
        exact ⟨first.1 found, others.1 rest⟩
      · cases collected
    · rintro ⟨given, rest⟩
      rw [collect_cons fields slots (first.2 given), others.2 rest]
      rfl

theorem exists_filledFrom {fields : Fields types} {row : Row types} (h : fields.RowFrom entries row) :
    ∃ slots, fields.FilledFrom entries slots := by
  induction fields with
  | nil => exact ⟨(), trivial⟩
  | cons field fields ih =>
    obtain ⟨a, row⟩ := row
    obtain ⟨slot, first⟩ := field.exists_filledFrom h.1
    obtain ⟨slots, others⟩ := ih h.2
    exact ⟨(slot, slots), first, others⟩

/-! ## One member -/

/-- Each field has a name of its own, and its value is read as it is decoded by itself. -/
inductive Ready (depth : Nat) : {types : List Type} → Fields types → Prop where
  | nil : Ready depth .nil
  | cons {α : Type} {types : List Type} {field : Field α} {fields : Fields types}
      (reads : field.shape.AsDocument depth) (unused : field.name ∉ fields.names)
      (others : Ready depth fields) : Ready depth (.cons field fields)

/-- A member is read into the room of its field if that holds nothing yet and the value is one of the field;
the other members are passed over. -/
theorem Ready.fill_iff {fields : Fields types} {depth : Nat} (h : fields.Ready depth)
    {slots next : Slots types} (held : fields.FilledFrom entries slots) {m : Member} {e : Entry}
    (told : m.IsEntry e) {name : String} (named : e.name? = some name) {rest after : List Char}
    (ends : EndsPart rest) (ends' : EndsPart after) :
    fields.fill depth slots name (m.gap ++ ':' :: (m.item.text ++ rest)) = .ok (next, after) ↔
      m.item.after ++ rest = after ∧ fields.FilledFrom (entries ++ [e]) next := by
  obtain ⟨-, hg, hb, ha⟩ := told.spaced
  have behind : EndsPart (m.item.after ++ rest) := endsPart_append ha ends
  have split : m.item.text ++ rest = m.item.before ++ (m.item.value ++ (m.item.after ++ rest)) := by
    simp [Item.text]
  induction h generalizing after with
  | nil =>
    show memberValue _ _ = _ ↔ _
    rw [memberValue_gap _ hg, split, skip_wellFormed hb told.wellFormed behind]
    constructor
    · intro same
      exact ⟨(Prod.mk.inj (Except.ok.inj same)).2, trivial⟩
    · rintro ⟨rfl, -⟩
      rfl
  | @cons α types field fields reads unused _ ih =>
    obtain ⟨slot, slots⟩ := slots
    obtain ⟨next, nexts⟩ := next
    by_cases own : name = field.name
    · -- Of the members of its name a field takes the first one, and no other may come.
      subst own
      have others : fields.FilledFrom (entries ++ [e]) nexts ↔ slots = nexts :=
        (filledFrom_other named unused nexts).trans ⟨held.2.unique, fun same => same ▸ held.2⟩
      have value : e.value = String.ofList m.item.value := by
        rw [← told.value, String.ofList_toList]
      show _ ↔ _ ∧ field.FilledFrom (entries ++ [e]) next ∧ fields.FilledFrom (entries ++ [e]) nexts
      rw [others, field.filledFrom_self named held.1, value]
      cases slot with
      | some a =>
        have twice : (Fields.cons field fields).fill depth (some a, slots) field.name
            (m.gap ++ ':' :: (m.item.text ++ rest))
              = .error (.pending (.duplicateField field.name) (m.gap ++ ':' :: (m.item.text ++ rest))) :=
          if_pos rfl
        rw [twice]
        simp
      | none =>
        rw [fill_self, memberValue_gap _ hg, split, Except.map_eq_ok_iff]
        constructor
        · rintro ⟨⟨a, after'⟩, read, same⟩
          obtain ⟨pair, rfl⟩ := Prod.mk.inj same
          obtain ⟨rfl, rfl⟩ := Prod.mk.inj pair
          obtain ⟨same, decoded⟩ := (reads hb told.wellFormed behind ends').1 read
          exact ⟨same, ⟨rfl, a, rfl, decoded⟩, rfl⟩
        · rintro ⟨same, ⟨-, a, rfl, decoded⟩, rfl⟩
          exact ⟨(a, after), (reads hb told.wellFormed behind ends').2 ⟨same, decoded⟩, rfl⟩
    · have own' : field.FilledFrom (entries ++ [e]) next ↔ slot = next :=
        (field.filledFrom_other named (Ne.symm own) next).trans ⟨held.1.unique, fun same => same ▸ held.1⟩
      show _ ↔ _ ∧ field.FilledFrom (entries ++ [e]) next ∧ fields.FilledFrom (entries ++ [e]) nexts
      rw [fill_other fields depth slot slots own, Except.map_eq_ok_iff, own']
      constructor
      · rintro ⟨⟨slots', after'⟩, read, same⟩
        obtain ⟨pair, rfl⟩ := Prod.mk.inj same
        obtain ⟨rfl, rfl⟩ := Prod.mk.inj pair
        obtain ⟨same, holds⟩ := (ih held.2 ends').1 read
        exact ⟨same, rfl, holds⟩
      · rintro ⟨same, rfl, holds⟩
        exact ⟨(nexts, after), (ih held.2 ends').2 ⟨same, holds⟩, rfl⟩

end Fields

/-! ## Records -/

/-- The loop over the members of an object follows what they tell of the fields. -/
theorem Fields.Ready.follows {types : List Type} {fields : Fields types} {depth : Nat}
    (h : fields.Ready depth) : Follows (fields.fill depth) fields.FilledFrom where
  unique := FilledFrom.unique
  before := FilledFrom.before
  step held told named ends ends' := h.fill_iff held told named ends ends'

/-- An object is read as the values of a record exactly if the names of its members are texts and the members
give each field its value, whatever stands around the object. -/
theorem Record.readRow_object_iff {α : Type} {record : Record α} {depth : Nat}
    (h : record.fields.Ready depth) {entries : List Entry} {ms : List Member}
    (told : List.Forall₂ Member.IsEntry ms entries) {before inside after rest : List Char} (hb : Blanks before)
    (parted : Parted (ms.map Member.text) inside) {row : Row record.types} :
    record.readRow (depth + 1) (before ++ '{' :: (inside ++ '}' :: after)) = .ok (row, rest) ↔
      rest = after ∧ (∀ e ∈ entries, e.name?.isSome) ∧ record.fields.RowFrom entries row := by
  have members : ∀ slots tail, Json.members (record.fields.fill depth) record.fields.vacant
      (inside ++ '}' :: after) = .ok (slots, tail) ↔
        tail = '}' :: after ∧ (∀ e ∈ entries, e.name?.isSome) ∧ record.fields.FilledFrom entries slots :=
    fun slots tail => h.follows.members_iff record.fields.filledFrom_nil told parted
  rw [record.readRow_object hb, close_eq_ok_iff]
  unfold Fields.readMembers
  constructor
  · rintro ⟨tail, read, closed⟩
    split at read
    · cases read
    · next slots tail' filled =>
      obtain ⟨rfl, named, holds⟩ := (members _ _).1 filled
      split at read
      · next row' collected =>
        obtain ⟨rfl, rfl⟩ := Prod.mk.inj (Except.ok.inj read)
        rw [endObject_close] at closed
        exact ⟨(Prod.mk.inj closed).2.symm, named, (holds.collect_iff _).1 collected⟩
      · cases read
  · rintro ⟨rfl, named, given⟩
    obtain ⟨slots, holds⟩ := Fields.exists_filledFrom given
    refine ⟨'}' :: rest, ?_, endObject_close rest⟩
    rw [(members slots _).2 ⟨rfl, named, holds⟩]
    simp only [(holds.collect_iff row).2 given]

/-- A record is made of the row that is read, and reading stops where that of the row does. -/
theorem Record.read_iff_of_readRow {α : Type} {record : Record α} {depth : Nat} {s after : List Char}
    {told : Row record.types → Prop}
    (read : ∀ row rest, record.readRow depth s = .ok (row, rest) ↔ rest = after ∧ told row) (a : α)
    (rest : List Char) :
    record.shape.read depth s = .ok (a, rest) ↔ rest = after ∧ ∃ row, told row ∧ record.build row = a := by
  constructor
  · intro taken
    obtain ⟨⟨row, rest'⟩, found, made⟩ := Except.map_eq_ok_iff.1 taken
    obtain ⟨rfl, rfl⟩ := Prod.mk.inj made
    obtain ⟨stops, holds⟩ := (read row rest').1 found
    exact ⟨stops, row, holds, rfl⟩
  · rintro ⟨rfl, row, holds, rfl⟩
    exact Except.map_eq_ok_iff.2 ⟨(row, rest), (read row rest).2 ⟨rfl, holds⟩, rfl⟩

/-- An object is decoded as a record exactly if the names of its members are texts and the members give each
field its value; the record is made of these values. -/
theorem Record.decode_object_iff {α : Type} {record : Record α}
    (h : record.fields.Ready (nestingLimit - 1)) {entries : List Entry} {text : String}
    (object : ObjectText entries text) (a : α) :
    record.shape.decode text = .ok a ↔
      (∀ e ∈ entries, e.name?.isSome) ∧ ∃ row, record.fields.RowFrom entries row ∧ record.build row = a := by
  obtain ⟨before, inside, after, ms, same, hb, ha, parted, told⟩ := object
  have read : ∀ row rest, record.readRow nestingLimit text.toList = .ok (row, rest) ↔
      rest = after ∧ (∀ e ∈ entries, e.name?.isSome) ∧ record.fields.RowFrom entries row := by
    intro row rest
    rw [same]
    exact Record.readRow_object_iff h told hb parted
  rw [Shape.decode_eq_ok_iff]
  constructor
  · rintro ⟨rest, taken, -⟩
    obtain ⟨-, row, ⟨named, given⟩, made⟩ := (Record.read_iff_of_readRow read a rest).1 taken
    exact ⟨named, row, given, made⟩
  · rintro ⟨named, row, given, made⟩
    exact ⟨after, (Record.read_iff_of_readRow read a after).2 ⟨rfl, row, ⟨named, given⟩, made⟩,
      dropSpace_eq_nil_iff.2 ha⟩

end Courier.Json
