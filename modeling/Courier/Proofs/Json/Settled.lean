import Courier.Proofs.Calendar.Spelled
import Courier.Proofs.Json.Record
import Courier.Proofs.Json.Success

set_option autoImplicit false

/-! # What is read is settled

Of the data that a shape can hold it may keep less than all: of an instant, the start of its second. Data
that have been read have nothing to lose any more: a shape keeps all of them (`Shape.Settles`), whatever text
they were read from. The laws follow those of `Shape.Faithful`: the parts of a table and of a record settle,
and so does the whole, whether the record is read from an object or from an array.
-/

namespace Courier

theorem DateText.wholeSecond_of_parse {text : String} {t : Instant} (h : parse text = .ok t) :
    t.wholeSecond = t := by
  obtain ⟨date, clock, -, told, nano⟩ := parse_eq_ok_iff.1 h
  exact told.wholeSecond_eq nano

namespace Json

/-! ## Shapes -/

namespace Shape

variable {α : Type} {shape : Shape α} {keep : α → α}

/-- The shape keeps all of what it has read. -/
def Settles (shape : Shape α) (keep : α → α) : Prop :=
  ∀ depth s a rest, shape.read depth s = .ok (a, rest) → keep a = a

/-- A shape that keeps all data keeps those that it has read. -/
theorem settles_id (shape : Shape α) : shape.Settles id := by
  intro depth s a rest _
  rfl

theorem instant_settles : instant.Settles Instant.wholeSecond := by
  intro depth s t rest h
  have h : readInstant depth s = .ok (t, rest) := h
  unfold readInstant at h
  split at h
  · cases h
  · split at h
    · next told =>
      obtain ⟨rfl, -⟩ := Prod.mk.inj (Except.ok.inj h)
      exact DateText.wholeSecond_of_parse told
    · cases h

theorem optional_settles (h : shape.Settles keep) : (optional shape).Settles (Option.map keep) := by
  intro depth s a? rest read
  rcases readOptional_eq_ok_iff.1 read with ⟨-, rfl⟩ | ⟨-, a, taken, rfl⟩
  · rfl
  · rw [Option.map_some, h depth s a rest taken]

/-- Entries are put into a table one after the other, and each of them has been read. -/
theorem table_settles (h : shape.Settles keep) : (table shape).Settles (Table.map keep) := by
  intro depth s t rest read
  obtain ⟨inner, tail, -, -, content⟩ := container_eq_ok_iff.1 read
  obtain ⟨after, content, -⟩ := close_eq_ok_iff.1 content
  have kept : ∀ p ∈ t.entries, keep p.2 = p.2 := by
    refine members_invariant (fun t : Table α => ∀ p ∈ t.entries, keep p.2 = p.2) ?_ ?_ content
    · intro t name s next rest held member p hp
      obtain ⟨⟨a, after⟩, value, same⟩ := Except.map_eq_ok_iff.1 member
      obtain ⟨rfl, rfl⟩ := Prod.mk.inj same
      obtain ⟨tail, -, read⟩ := memberValue_eq_ok_iff.1 value
      rcases mem_insertEntry hp with rfl | hp
      · exact h inner tail a after read
      · exact held p hp
    · intro p hp
      exact absurd hp List.not_mem_nil
  obtain ⟨entries, inOrder⟩ := t
  have same : entries.map (fun p => (p.1, keep p.2)) = entries := by
    calc entries.map (fun p => (p.1, keep p.2)) = entries.map id :=
          List.map_congr_left fun p hp => Prod.ext rfl (kept p hp)
      _ = entries := List.map_id _
  unfold Table.map
  simp only [same]

end Shape

/-! ## Records -/

namespace Fields

/-- Each field settles, and so does what it holds when it is left out. The slots that have a value then hold
one that is kept. -/
inductive Settles : {types : List Type} → Fields types → (Row types → Row types) → (Slots types → Prop) →
    Prop where
  | nil : Settles .nil id fun _ => True
  | cons {α : Type} {types : List Type} {field : Field α} {fields : Fields types} {keep : α → α}
      {keeps : Row types → Row types} {held : Slots types → Prop} (settles : field.shape.Settles keep)
      (left : ∀ a, field.absence.inObject? = some a → keep a = a) (more : Settles fields keeps held) :
      Settles (.cons field fields) (fun row => (keep row.1, keeps row.2))
        (fun slots => (∀ a, slots.1 = some a → keep a = a) ∧ held slots.2)

variable {types : List Type} {fields : Fields types} {keeps : Row types → Row types}
  {held : Slots types → Prop}

theorem Settles.vacant (h : fields.Settles keeps held) : held fields.vacant := by
  induction h with
  | nil => trivial
  | cons settles left more ih => exact ⟨fun a none => absurd none (by simp [Fields.vacant]), ih⟩

/-- A member that is read leaves nothing in the slots that is not kept. -/
theorem Settles.fill (h : fields.Settles keeps held) {depth : Nat} {slots next : Slots types} {name : String}
    {s rest : List Char} (start : held slots) (read : fields.fill depth slots name s = .ok (next, rest)) :
    held next := by
  induction h generalizing rest with
  | nil => trivial
  | @cons α types field fields keep keeps held settles left more ih =>
    obtain ⟨slot, slots⟩ := slots
    obtain ⟨first, others⟩ := start
    by_cases own : name = field.name
    · subst own
      cases slot with
      | some a =>
        rw [Fields.fill, if_pos rfl] at read
        cases read
      | none =>
        rw [fill_self] at read
        obtain ⟨⟨a, after⟩, value, same⟩ := Except.map_eq_ok_iff.1 read
        obtain ⟨rfl, rfl⟩ := Prod.mk.inj same
        obtain ⟨tail, -, taken⟩ := memberValue_eq_ok_iff.1 value
        refine ⟨?_, others⟩
        intro b hb
        obtain rfl := Option.some.inj hb
        exact settles depth tail a after taken
    · rw [fill_other fields depth slot slots own] at read
      obtain ⟨⟨more', after⟩, value, same⟩ := Except.map_eq_ok_iff.1 read
      obtain ⟨rfl, rfl⟩ := Prod.mk.inj same
      exact ⟨first, ih others value⟩

/-- A slot without a value gets the one of its field. -/
theorem Settles.collect (h : fields.Settles keeps held) {slots : Slots types} {row : Row types}
    (start : held slots) (collected : fields.collect slots = .ok row) : keeps row = row := by
  induction h with
  | nil => rfl
  | @cons α types field fields keep keeps held settles left more ih =>
    obtain ⟨slot, slots⟩ := slots
    obtain ⟨first, others⟩ := start
    rw [Fields.collect] at collected
    split at collected
    · next a found =>
      obtain ⟨row, rest, rfl⟩ := Except.map_eq_ok_iff.1 collected
      have kept : keep a = a := by
        cases slot with
        | some b => exact first a found
        | none => exact left a found
      show (keep a, keeps row) = (a, row)
      rw [kept, ih others rest]
    · cases collected

/-- What an array may leave out, an object may, too. -/
theorem inObject?_of_inArray? {α : Type} {absence : Absence α} {a : α} (h : absence.inArray? = some a) :
    absence.inObject? = some a := by
  cases absence with
  | refused => cases h
  | inObject b => cases h
  | anywhere b => exact h

theorem Settles.readItems (h : fields.Settles keeps held) {expected : String} {depth count : Nat}
    {s rest : List Char} {row : Row types}
    (read : fields.readItems expected depth count s = .ok (row, rest)) : keeps row = row := by
  induction h generalizing count s rest with
  | nil => rfl
  | @cons α types field fields keep keeps held settles left more ih =>
    have both : ∀ {a : α} {count : Nat} {s : List Char}, keep a = a →
        ((fields.readItems expected depth count s).map fun p => ((a, p.1), p.2))
          = .ok (row, rest) → (keep row.1, keeps row.2) = row := by
      intro a count s kept read
      obtain ⟨⟨others, after⟩, taken, same⟩ := Except.map_eq_ok_iff.1 read
      obtain ⟨rfl, rfl⟩ := Prod.mk.inj same
      show (keep a, keeps others) = (a, others)
      rw [kept, ih taken]
    rw [Fields.readItems] at read
    split at read
    · cases read
    · split at read
      · cases read
      · next a absent => exact both (left a (inObject?_of_inArray? absent)) read
    · split at read
      · cases read
      · next a after taken => exact both (settles depth _ a after taken) read

end Fields

/-- What has been read as a record is kept if what has been read as its fields is. -/
theorem Record.settles {α : Type} {record : Record α} {keep : α → α}
    {keeps : Row record.types → Row record.types} {held : Slots record.types → Prop}
    (h : record.fields.Settles keeps held)
    (built : ∀ row, keep (record.build row) = record.build (keeps row)) : record.shape.Settles keep := by
  intro depth s a rest read
  obtain ⟨⟨row, after⟩, rows, same⟩ := Except.map_eq_ok_iff.1 read
  obtain ⟨rfl, rfl⟩ := Prod.mk.inj same
  have kept : keeps row = row := by
    obtain ⟨c, tail, -, taken⟩ := afterSpace_eq_ok_iff.1 rows
    split at taken
    · obtain ⟨inner, -, content⟩ := enter_eq_ok_iff.1 taken
      obtain ⟨last, content, -⟩ := close_eq_ok_iff.1 content
      exact h.readItems content
    · split at taken
      · obtain ⟨inner, -, content⟩ := enter_eq_ok_iff.1 taken
        obtain ⟨last, content, -⟩ := close_eq_ok_iff.1 content
        unfold Fields.readMembers at content
        split at content
        · cases content
        · next slots left read =>
          have filled : held slots :=
            members_invariant held (fun _ _ _ _ _ start read => h.fill start read) h.vacant read
          split at content
          · next row' collected =>
            obtain ⟨rfl, rfl⟩ := Prod.mk.inj (Except.ok.inj content)
            exact h.collect filled collected
          · cases content
      · cases taken
  rw [built, kept]

end Json

end Courier
