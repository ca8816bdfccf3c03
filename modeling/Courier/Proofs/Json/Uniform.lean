import Courier.Proofs.Json.Object

set_option autoImplicit false

/-! # Records are read alike wherever they stand

A record may be given as an object, or as an array of the values of its fields (`Fields.RowInOrder`). In
either form the text of it alone decides what is read, and reading stops at its closing bracket
(`Record.readRow_uniform`): not the blanks before it, not what comes after it, and not how many containers are
open. So what a record in a container means is what it is decoded as by itself (`Record.uniform`). Of a number
this would not be true, for digits after it belong to it.
-/

namespace Courier.Json

/-! ## Records as arrays -/

theorem endArray_eq_none_iff {s rest : List Char} : endArray s = (none, rest) ↔ dropSpace s = ']' :: rest := by
  unfold endArray
  cases dropSpace s with
  | nil => simp
  | cons c tail =>
    by_cases close : c = ']'
    · simp [close]
    · simp only [List.cons.injEq, close, false_and, iff_false]
      by_cases comma : c = ','
      · rw [if_pos comma]
        cases dropSpace tail <;> simp
      · simp [comma]

namespace Fields

variable {types : List Type}

/-- The values give each field its value, in the order of the fields, and what stands for a value that an array
may leave out if there are too few of them. -/
def RowInOrder {types : List Type} (fields : Fields types) (items : List Item) (row : Row types) : Prop :=
  match fields, items, row with
  | .nil, [], () => True
  | .nil, _ :: _, () => False
  | .cons field fields, [], (a, row) => field.absence.inArray? = some a ∧ fields.RowInOrder [] row
  | .cons field fields, item :: items, (a, row) =>
    field.shape.decode (String.ofList item.value) = .ok a ∧ fields.RowInOrder items row

/-- What the reader of the fields goes on with ends the item before. -/
theorem endsPart_of_readItems {fields : Fields types} {expected : String} {depth count : Nat}
    {s after : List Char} {row : Row types}
    (h : close endArray (fields.readItems expected depth (count + 1) s) = .ok (row, after)) :
    EndsPart s := by
  obtain ⟨rest, read, closed⟩ := close_eq_ok_iff.1 h
  cases fields with
  | nil =>
    obtain rfl : s = rest := (Prod.mk.inj (Except.ok.inj read)).2
    exact endsPart_of_dropSpace (endArray_eq_none_iff.1 closed) (by decide)
  | cons field fields =>
    rw [readItems, show (count + 1 == 0) = false from rfl] at read
    split at read
    · cases read
    · next found =>
      obtain ⟨tail, rfl, begins⟩ := nextItem_eq_close found
      exact endsPart_of_dropSpace begins (by decide)
    · next found =>
      obtain ⟨tail, begins, -⟩ := nextItem_eq_item found
      exact endsPart_of_dropSpace begins (by decide)

/-- When no field is left, the array has to end. -/
theorem readItems_nil_iff {expected : String} {depth count : Nat} {s after : List Char} {row : Row []} :
    close endArray (Fields.nil.readItems expected depth count s) = .ok (row, after) ↔
      dropSpace s = ']' :: after := by
  rw [← endArray_eq_none_iff]
  constructor
  · intro h
    obtain ⟨rest, read, closed⟩ := close_eq_ok_iff.1 h
    obtain rfl : s = rest := (Prod.mk.inj (Except.ok.inj read)).2
    exact closed
  · intro closed
    exact close_eq_ok_iff.2 ⟨s, rfl, closed⟩

section Cons

variable {α : Type} {field : Field α} {fields : Fields types} {expected : String} {depth count : Nat}
  {s rest after : List Char} {a : α} {row : Row types}

/-- When no item is left, a field has what stands for its value. -/
theorem readItems_left_iff (found : nextItem (count == 0) s = .ok (false, rest)) :
    close endArray ((Fields.cons field fields).readItems expected depth count s) = .ok ((a, row), after) ↔
      field.absence.inArray? = some a ∧
        close endArray (fields.readItems expected depth (count + 1) rest) = .ok (row, after) := by
  constructor
  · intro h
    obtain ⟨tail, read, closed⟩ := close_eq_ok_iff.1 h
    simp only [readItems, found] at read
    split at read
    · cases read
    · next b left =>
      obtain ⟨⟨row', tail'⟩, others, same⟩ := Except.map_eq_ok_iff.1 read
      obtain ⟨pair, rfl⟩ := Prod.mk.inj same
      obtain ⟨rfl, rfl⟩ := Prod.mk.inj pair
      exact ⟨left, close_eq_ok_iff.2 ⟨tail', others, closed⟩⟩
  · rintro ⟨left, h⟩
    obtain ⟨tail, others, closed⟩ := close_eq_ok_iff.1 h
    refine close_eq_ok_iff.2 ⟨tail, ?_, closed⟩
    simp only [readItems, found, left, others]
    rfl

theorem readItems_item_iff (reads : field.shape.AsDocument depth) {item : Item} (spaced : item.Spaced)
    (wellFormed : WellFormed item.value) {more : List Char} (ends : EndsPart more)
    (found : nextItem (count == 0) s = .ok (true, item.value ++ (item.after ++ more))) :
    close endArray ((Fields.cons field fields).readItems expected depth count s) = .ok ((a, row), after) ↔
      field.shape.decode (String.ofList item.value) = .ok a ∧
        close endArray (fields.readItems expected depth (count + 1) (item.after ++ more))
          = .ok (row, after) := by
  have behind : EndsPart (item.after ++ more) := endsPart_append spaced.2 ends
  have readIff : ∀ {b : α} {tail : List Char}, EndsPart tail →
      (field.shape.read depth (item.value ++ (item.after ++ more)) = .ok (b, tail) ↔
        item.after ++ more = tail ∧ field.shape.decode (String.ofList item.value) = .ok b) :=
    fun ends' => reads blanks_nil wellFormed behind ends'
  constructor
  · intro h
    obtain ⟨tail, read, closed⟩ := close_eq_ok_iff.1 h
    simp only [readItems, found] at read
    split at read
    · cases read
    · next b behind' taken =>
      obtain ⟨⟨row', tail'⟩, others, same⟩ := Except.map_eq_ok_iff.1 read
      obtain ⟨pair, rfl⟩ := Prod.mk.inj same
      obtain ⟨rfl, rfl⟩ := Prod.mk.inj pair
      have all := close_eq_ok_iff.2 ⟨tail', others, closed⟩
      obtain ⟨rfl, decoded⟩ := (readIff (endsPart_of_readItems all)).1 taken
      exact ⟨decoded, all⟩
  · rintro ⟨decoded, h⟩
    obtain ⟨tail, others, closed⟩ := close_eq_ok_iff.1 h
    refine close_eq_ok_iff.2 ⟨tail, ?_, closed⟩
    simp only [readItems, found, (readIff behind).2 ⟨rfl, decoded⟩, others]
    rfl

end Cons

/-- The items after a first one are read field by field, to the closing bracket. -/
theorem Ready.readItems_iff {fields : Fields types} {depth : Nat} (h : fields.Ready depth) {expected : String}
    {count : Nat} {items : List Item} (spaced : ∀ i ∈ items, i.Spaced)
    (wellFormed : ∀ i ∈ items, WellFormed i.value) {blanks tail after : List Char} (hb : Blanks blanks)
    {row : Row types} :
    close endArray (fields.readItems expected depth (count + 1)
        (blanks ++ (moreParts (items.map Item.text) ++ ']' :: tail))) = .ok (row, after) ↔
      after = tail ∧ fields.RowInOrder items row := by
  induction h generalizing count items blanks with
  | nil =>
    refine readItems_nil_iff.trans ?_
    rw [dropSpace_append hb]
    cases items with
    | nil =>
      rw [List.map_nil, moreParts_nil, List.nil_append, dropSpace_cons (by decide), List.cons.injEq]
      exact ⟨fun same => ⟨same.2.symm, trivial⟩, fun same => ⟨rfl, same.1.symm⟩⟩
    | cons item items =>
      -- A comma is in the way, and no field is left to take the item after it.
      rw [List.map_cons, moreParts_cons, List.cons_append, dropSpace_cons (by decide), List.cons.injEq]
      exact ⟨fun same => absurd same.1 (by decide), fun same => same.2.elim⟩
  | @cons α types field fields reads unused _ ih =>
    obtain ⟨a, row⟩ := row
    cases items with
    | nil =>
      have found := @nextItem_close _ tail hb (count + 1 == 0)
      have others := @ih (count + 1) [] spaced wellFormed [] blanks_nil row
      refine (readItems_left_iff found).trans ?_
      exact (and_congr_right' others).trans and_left_comm
    | cons item items =>
      obtain ⟨first, spaced⟩ := List.forall_mem_cons.1 spaced
      obtain ⟨value, wellFormed⟩ := List.forall_mem_cons.1 wellFormed
      have ends : EndsPart (moreParts (items.map Item.text) ++ ']' :: tail) :=
        Skip.endsPart_following .array _ tail
      have found : nextItem (count + 1 == 0) _ = _ :=
        @nextItem_comma _ _ _ (item.after ++ (moreParts (items.map Item.text) ++ ']' :: tail)) hb first.1
          value.starts
      have split : blanks ++ (moreParts ((item :: items).map Item.text) ++ ']' :: tail)
          = blanks ++ ',' :: (item.before ++ (item.value
            ++ (item.after ++ (moreParts (items.map Item.text) ++ ']' :: tail)))) := by
        simp [Item.text]
      rw [split]
      refine (readItems_item_iff reads first value ends found).trans ?_
      exact (and_congr_right' (ih spaced wellFormed first.2)).trans and_left_comm

/-- The items of an array are read field by field, to the closing bracket. -/
theorem Ready.readItems_parted_iff {fields : Fields types} {depth : Nat} (h : fields.Ready depth)
    {expected : String} {items : List Item} (spaced : ∀ i ∈ items, i.Spaced)
    (wellFormed : ∀ i ∈ items, WellFormed i.value) {inside tail after : List Char}
    (parted : Parted (items.map Item.text) inside) {row : Row types} :
    close endArray (fields.readItems expected depth 0 (inside ++ ']' :: tail)) = .ok (row, after) ↔
      after = tail ∧ fields.RowInOrder items row := by
  cases h with
  | nil =>
    refine readItems_nil_iff.trans ?_
    cases items with
    | nil =>
      rw [dropSpace_append parted, dropSpace_cons (by decide), List.cons.injEq]
      exact ⟨fun same => ⟨same.2.symm, trivial⟩, fun same => ⟨rfl, same.1.symm⟩⟩
    | cons item items =>
      obtain ⟨first, -⟩ := List.forall_mem_cons.1 spaced
      obtain ⟨value, -⟩ := List.forall_mem_cons.1 wellFormed
      obtain ⟨c, t, begins, notSpace, notClose, -, -⟩ := value.starts
      obtain rfl : inside = item.text ++ moreParts (items.map Item.text) := parted
      rw [Item.text, List.append_assoc, List.append_assoc, dropSpace_append first.1, List.append_assoc, begins,
        List.cons_append, dropSpace_cons notSpace, List.cons.injEq]
      exact ⟨fun same => absurd same.1 notClose, fun same => same.2.elim⟩
  | @cons α types field fields reads unused others =>
    obtain ⟨a, row⟩ := row
    cases items with
    | nil =>
      have found := @nextItem_close _ tail parted (0 == 0)
      refine (readItems_left_iff found).trans ?_
      have left : close endArray (fields.readItems expected depth 1 (']' :: tail)) = .ok (row, after) ↔
          after = tail ∧ fields.RowInOrder [] row := others.readItems_iff spaced wellFormed blanks_nil
      exact (and_congr_right' left).trans and_left_comm
    | cons item items =>
      obtain ⟨first, spaced⟩ := List.forall_mem_cons.1 spaced
      obtain ⟨value, wellFormed⟩ := List.forall_mem_cons.1 wellFormed
      obtain rfl : inside = item.text ++ moreParts (items.map Item.text) := parted
      have ends : EndsPart (moreParts (items.map Item.text) ++ ']' :: tail) :=
        Skip.endsPart_following .array _ tail
      have found : nextItem ((0 : Nat) == 0) _ = _ :=
        @nextItem_first _ _ (item.after ++ (moreParts (items.map Item.text) ++ ']' :: tail)) first.1
          value.starts
      have split : item.text ++ moreParts (items.map Item.text) ++ ']' :: tail
          = item.before ++ (item.value ++ (item.after ++ (moreParts (items.map Item.text) ++ ']' :: tail))) := by
        simp [Item.text]
      rw [split]
      refine (readItems_item_iff reads first value ends found).trans ?_
      exact (and_congr_right' (others.readItems_iff spaced wellFormed first.2)).trans and_left_comm

end Fields

/-! ## Records anywhere -/

/-- The entry that a member is: its name as far as that spells a text, and the text of its value. -/
def Member.entry (m : Member) : Entry :=
  ⟨(Literal.read (m.name ++ ['"'])).toOption.map Prod.fst, String.ofList m.item.value⟩

theorem Member.isEntry_entry {m : Member} (spaced : m.Spaced) (inside : Literal.Inside m.name)
    (wellFormed : WellFormed m.item.value) : m.IsEntry m.entry where
  spaced := spaced
  inside := inside
  name name := by
    unfold entry
    constructor
    · intro named
      obtain ⟨⟨name, rest⟩, found, rfl⟩ := Option.map_eq_some_iff.1 named
      cases read : Literal.read (m.name ++ ['"']) with
      | error fault => simp [read, Except.toOption] at found
      | ok p =>
        obtain rfl : p = (name, rest) := by simpa [read, Except.toOption] using found
        exact ((Literal.read_inside_iff inside).1 read).2
    · intro spells
      rw [(Literal.read_inside_iff inside).2 ⟨rfl, spells⟩]
      rfl
  wellFormed := wellFormed
  value := String.toList_ofList

namespace Record

variable {α : Type} {record : Record α}

/-- What is read as a record begins with a bracket. -/
theorem begins_of_readRow {depth : Nat} {s rest : List Char} {row : Row record.types}
    (h : record.readRow depth s = .ok (row, rest)) :
    ∃ c tail, dropSpace s = c :: tail ∧ (c = '[' ∨ c = '{') := by
  obtain ⟨c, tail, begins, taken⟩ := afterSpace_eq_ok_iff.1 h
  refine ⟨c, tail, begins, ?_⟩
  by_contra other
  rw [not_or] at other
  rw [if_neg other.1, if_neg other.2] at taken
  cases taken

/-- The text of a value alone decides what it is read as, and reading stops at its end. -/
theorem readRow_uniform {t : List Char} (h : WellFormed t) :
    ∃ told : Row record.types → Prop, ∀ {depth : Nat} {blanks rest after : List Char} {row : Row record.types},
      record.fields.Ready depth → Blanks blanks →
        (record.readRow (depth + 1) (blanks ++ (t ++ rest)) = .ok (row, after) ↔ after = rest ∧ told row) := by
  obtain ⟨c, s, rfl, notSpace, -⟩ := h.starts
  by_cases array : c = '['
  · subst array
    cases h with
    | numeral unsigned =>
      obtain ⟨d, ds, same, digit⟩ := unsigned.begins
      rw [← (List.cons.inj same).1] at digit
      exact absurd digit (by decide)
    | @array items s parted spaced values =>
      refine ⟨record.fields.RowInOrder items, ?_⟩
      intro depth blanks rest after row ready hb
      rw [List.cons_append, List.append_assoc, record.readRow_array hb]
      exact ready.readItems_parted_iff spaced values parted
  by_cases object : c = '{'
  · subst object
    cases h with
    | numeral unsigned =>
      obtain ⟨d, ds, same, digit⟩ := unsigned.begins
      rw [← (List.cons.inj same).1] at digit
      exact absurd digit (by decide)
    | @object ms s parted spaced names values =>
      have told : List.Forall₂ Member.IsEntry ms (ms.map Member.entry) := by
        rw [List.forall₂_map_right_iff, List.forall₂_same]
        exact fun m hm => m.isEntry_entry (spaced m hm) (names m hm) (values m hm)
      refine ⟨fun row => (∀ e ∈ ms.map Member.entry, e.name?.isSome) ∧
        record.fields.RowFrom (ms.map Member.entry) row, ?_⟩
      intro depth blanks rest after row ready hb
      have split : blanks ++ ('{' :: (s ++ ['}']) ++ rest) = blanks ++ '{' :: (s ++ '}' :: rest) := by simp
      rw [split]
      exact readRow_object_iff ready told hb parted
  · -- Nothing else is read as a record.
    refine ⟨fun _ => False, ?_⟩
    intro depth blanks rest after row _ hb
    refine iff_of_false (fun read => ?_) fun none => none.2
    obtain ⟨d, tail, begins, bracket⟩ := begins_of_readRow read
    rw [dropSpace_append hb, List.cons_append, dropSpace_cons notSpace] at begins
    obtain ⟨rfl, -⟩ := List.cons.inj begins
    exact bracket.elim array object

end Record

/-! ## The law -/

namespace Shape

variable {α : Type} {shape : Shape α} {height : Nat}

/-- What is read up to the blanks at the end of a text, whatever follows it, is decoded if only blanks do. -/
theorem decode_iff_of_stops {s blanks more : List Char} {told : α → Prop} (hb : Blanks blanks)
    (stops : ∀ rest a after, shape.read nestingLimit (s ++ rest) = .ok (a, after) ↔
      after = blanks ++ rest ∧ told a)
    {text : String} (same : text.toList = s ++ more) (a : α) :
    shape.decode text = .ok a ↔ Blanks more ∧ told a := by
  rw [decode_eq_ok_iff, same]
  constructor
  · rintro ⟨after, read, blank⟩
    obtain ⟨rfl, holds⟩ := (stops more a after).1 read
    rw [dropSpace_append hb] at blank
    exact ⟨dropSpace_eq_nil_iff.1 blank, holds⟩
  · rintro ⟨blank, holds⟩
    refine ⟨blanks ++ more, (stops more a _).2 ⟨rfl, holds⟩, ?_⟩
    rw [dropSpace_append hb]
    exact dropSpace_eq_nil_iff.2 blank

/-- Where `height` containers may be opened, a value is read up to its end, whatever follows it, as what it is
decoded as by itself. -/
def Uniform (shape : Shape α) (height : Nat) : Prop :=
  ∀ ⦃depth : Nat⦄ ⦃blanks t rest after : List Char⦄ ⦃a : α⦄, height ≤ depth → depth ≤ nestingLimit →
    Blanks blanks → WellFormed t →
      (shape.read depth (blanks ++ (t ++ rest)) = .ok (a, after) ↔
        after = rest ∧ shape.decode (String.ofList t) = .ok a)

def Padded (value : List Char) (text : String) : Prop :=
  ∃ before after, text.toList = before ++ (value ++ after) ∧ Blanks before ∧ Blanks after

/-- Blanks around a document do not count. -/
theorem Uniform.decode_padded_iff (h : shape.Uniform height) (room : height ≤ nestingLimit) {t : List Char}
    (wellFormed : WellFormed t) {text : String} (padded : Padded t text) (a : α) :
    shape.decode text = .ok a ↔ shape.decode (String.ofList t) = .ok a := by
  obtain ⟨before, after, same, hb, ha⟩ := padded
  rw [← List.append_assoc] at same
  have stops : ∀ rest a after, shape.read nestingLimit ((before ++ t) ++ rest) = .ok (a, after) ↔
      after = rest ∧ shape.decode (String.ofList t) = .ok a := by
    intro rest a after
    rw [List.append_assoc]
    exact h room Nat.le.refl hb wellFormed
  rw [decode_iff_of_stops blanks_nil stops same]
  exact and_iff_right ha

end Shape

theorem Record.uniform {α : Type} {record : Record α} {height : Nat}
    (ready : ∀ depth, height ≤ depth → depth < nestingLimit → record.fields.Ready depth) :
    record.shape.Uniform (height + 1) := by
  intro depth blanks t rest after a room limit hb wellFormed
  obtain ⟨told, reads⟩ := record.readRow_uniform wellFormed
  -- What the reader makes of the text is told by the row that stands in it.
  have taken : ∀ {depth : Nat}, height + 1 ≤ depth → depth ≤ nestingLimit → ∀ {blanks : List Char}, Blanks blanks →
      ∀ rest a after, record.shape.read depth (blanks ++ (t ++ rest)) = .ok (a, after) ↔
        after = rest ∧ ∃ row, told row ∧ record.build row = a := by
    intro depth room limit blanks hb rest a after
    obtain ⟨depth, rfl⟩ : ∃ k, depth = k + 1 := ⟨depth - 1, by omega⟩
    exact Record.read_iff_of_readRow
      (fun row after => @reads depth blanks rest after row (ready depth (by omega) (by omega)) hb) a after
  have whole : (String.ofList t).toList = t ++ [] := by simp
  have decoded := Shape.decode_iff_of_stops blanks_nil (taken (Nat.le_trans room limit) Nat.le.refl blanks_nil)
    whole a
  rw [taken room limit hb, decoded, and_iff_right blanks_nil]

end Courier.Json
