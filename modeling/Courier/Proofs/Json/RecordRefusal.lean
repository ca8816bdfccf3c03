import Courier.Proofs.Json.Record
import Courier.Proofs.Json.Refusal
import Courier.Proofs.Text.Steps

set_option autoImplicit false

/-! # Records and tables with a part that is refused

A record is refused for the cause that its first bad field is refused for, as long as no member before has the
name of that field (`Record.refuses`). So is a table for the first of its entries that is bad
(`Shape.table_rejects`). What stands after the bad part is not looked at.
-/

namespace Courier.Json

variable {α σ : Type} {cause : Cause}

/-! ## Values -/

/-- The value is refused wherever it stands, with blanks before it or not. -/
def Shape.Rejects (shape : Shape α) (depth : Nat) (t : List Char) (cause : Cause) : Prop :=
  ∀ blanks, Blanks blanks → Refuses (shape.read depth) (blanks ++ t) cause

namespace Shape

variable {shape : Shape α} {layout : Layout} {depth : Nat}

theorem Rejects.memberValue {t : List Char} (h : shape.Rejects depth t cause) (sound : layout.Sound) :
    Refuses (memberValue (shape.read depth)) (layout.colon ++ t) cause := by
  intro rest ends
  obtain ⟨blanks, hb, behind⟩ := sound.memberValue (shape.read depth)
  rw [List.append_assoc, behind, ← List.append_assoc]
  exact h blanks hb rest ends

theorem instant_rejects (sound : layout.Sound) (level : Nat) {text : String} {reason : DateText.Fault}
    (rejected : DateText.parse text = .error reason) :
    instant.Rejects depth ((Tree.string text).render layout level) (.invalidDate text reason.message) := by
  intro blanks hb rest ends
  have told := text_faithful layout sound level depth text blanks (Nat.zero_le _) hb rest ends
  have read : readText depth ((blanks ++ (Tree.string text).render layout level) ++ rest)
      = .ok (text, rest) := told
  refine ⟨.pending rest, ?_⟩
  show readInstant depth _ = _
  unfold readInstant
  simp only [read, rejected]
  rfl

theorem optional_rejects {v : Value} {level : Nat} (present : v ≠ .null)
    (h : shape.Rejects depth (v.render layout level) cause) :
    (optional shape).Rejects depth (v.render layout level) cause := by
  intro blanks hb rest ends
  obtain ⟨place, failed⟩ := h blanks hb rest ends
  obtain ⟨c, t, ht, hc, null⟩ := Tree.render_head layout level v
  have head : dropSpace ((blanks ++ v.render layout level) ++ rest) = c :: (t ++ rest) := by
    rw [List.append_assoc, dropSpace_append hb, ht, List.cons_append, dropSpace_cons hc.1]
  refine ⟨place, ?_⟩
  show readOptional shape.read depth _ = _
  rw [readOptional_plain shape.read depth head fun same => present (null same), failed]
  rfl

/-- What is written for a name is a literal of it, and the value after it is refused. -/
theorem stumbles_renderMember {member : σ → String → List Char → Scan σ} {state : σ} {level : Nat}
    {name : String} {v : Value}
    (refuses : Refuses (member state name) (layout.colon ++ v.render layout level) cause) :
    Stumbles member state name (Tree.renderMember layout level (name, v)) cause := by
  refine ⟨name.toList.flatMap escape ++ ['"'], layout.colon ++ v.render layout level, ?_, ?_, refuses⟩
  · simp [Tree.renderMember, textLiteral]
  · intro rest
    rw [List.append_assoc]
    exact Literal.read_flatMap_escape name rest

end Shape

/-! ## Records -/

namespace Fields

def Vacant {types : List Type} (fields : Fields types) (name : String) (slots : Slots types) : Prop :=
  match fields, slots with
  | .nil, () => True
  | .cons field fields, (slot, slots) => if name = field.name then slot = none else fields.Vacant name slots

def Rejects {types : List Type} (fields : Fields types) (depth : Nat) (name : String) (t : List Char)
    (cause : Cause) : Prop :=
  match fields with
  | .nil => False
  | .cons field fields =>
    if name = field.name then field.shape.Rejects depth t cause else fields.Rejects depth name t cause

variable {types : List Type} {fields : Fields types} {depth : Nat} {name : String}

section Cons

variable {β : Type} {field : Field β} {slot : Option β} {slots : Slots types}

theorem vacant_self : (Fields.cons field fields).Vacant field.name (slot, slots) ↔ slot = none :=
  iff_of_eq (if_pos rfl)

theorem vacant_other (ne : name ≠ field.name) :
    (Fields.cons field fields).Vacant name (slot, slots) ↔ fields.Vacant name slots :=
  iff_of_eq (if_neg ne)

end Cons

theorem vacant_vacant : fields.Vacant name fields.vacant := by
  induction fields with
  | nil => trivial
  | cons field fields ih =>
    by_cases own : name = field.name
    · subst own
      exact vacant_self.2 rfl
    · exact (vacant_other own).2 ih

theorem Vacant.fill {slots next : Slots types} (h : fields.Vacant name slots) {other : String}
    (ne : other ≠ name) {s rest : List Char} (read : fields.fill depth slots other s = .ok (next, rest)) :
    fields.Vacant name next := by
  induction fields generalizing rest with
  | nil => trivial
  | cons field fields ih =>
    obtain ⟨slot, slots⟩ := slots
    by_cases taken : other = field.name
    · subst taken
      cases slot with
      | some a =>
        rw [Fields.fill, if_pos rfl] at read
        cases read
      | none =>
        rw [fill_self] at read
        obtain ⟨⟨a, after⟩, -, same⟩ := Except.map_eq_ok_iff.1 read
        obtain ⟨rfl, -⟩ := Prod.mk.inj same
        exact (vacant_other ne.symm).2 ((vacant_other ne.symm).1 h)
    · rw [fill_other fields depth slot slots taken] at read
      obtain ⟨⟨nexts, after⟩, others, same⟩ := Except.map_eq_ok_iff.1 read
      obtain ⟨rfl, -⟩ := Prod.mk.inj same
      by_cases own : name = field.name
      · subst own
        exact vacant_self.2 (vacant_self.1 h)
      · exact (vacant_other own).2 (ih ((vacant_other own).1 h) others)

/-- A value that the field of its name refuses is one that the fields refuse, unless the field has a value. -/
theorem Rejects.fill {t : List Char} {layout : Layout} (h : fields.Rejects depth name t cause)
    (sound : layout.Sound) {slots : Slots types} (vacant : fields.Vacant name slots) :
    Refuses (fields.fill depth slots name) (layout.colon ++ t) cause := by
  induction fields with
  | nil => exact h.elim
  | cons field fields ih =>
    obtain ⟨slot, slots⟩ := slots
    unfold Rejects at h
    intro rest ends
    by_cases own : name = field.name
    · rw [if_pos own] at h
      subst own
      obtain rfl := vacant_self.1 vacant
      rw [fill_self]
      exact (h.memberValue sound).map _ rest ends
    · rw [if_neg own] at h
      rw [fill_other fields depth slot slots own]
      exact (ih h ((vacant_other own).1 vacant)).map _ rest ends

end Fields

/-- A record that is written with a value that its field refuses is refused for the same cause. -/
theorem Record.refuses {record : Record α} {keeps : Row record.types → Row record.types} {height : Nat}
    (h : record.fields.Faithful keeps height) (distinct : record.fields.names.Nodup) {layout : Layout}
    (sound : layout.Sound) {depth level : Nat} (room : height ≤ depth) (a : α)
    {before after more : List (String × Value)} {name : String} {v : Value}
    (written : record.fields.members (record.row a) = before ++ more) (fresh : name ∉ before.map Prod.fst)
    (rejects : record.fields.Rejects depth name (v.render layout (level + 1)) cause) :
    record.shape.Rejects (depth + 1) ((Tree.object (before ++ (name, v) :: after)).render layout level) cause := by
  intro blanks hb rest _
  obtain ⟨slots, chain, -⟩ := h.fill_collect distinct room sound (level + 1) (record.row a)
  rw [written, List.map_append] at chain
  obtain ⟨mid, chain⟩ := chain.split
  have vacant : record.fields.Vacant name mid := by
    refine chain.keeps (fun state next other s rest mem held read => held.fill ?_ read) Fields.vacant_vacant
    rintro rfl
    rw [List.map_map] at mem
    exact fresh mem
  obtain ⟨s, hs, place, failed⟩ := members_stumbles sound level rest chain
    (Shape.stumbles_renderMember (rejects.fill sound vacant)) (after.map (Tree.renderMember layout (level + 1)))
  have text : (Tree.object (before ++ (name, v) :: after)).render layout level ++ rest = '{' :: s := by
    rw [← hs, Tree.render_object]
    simp only [List.map_append, List.map_cons, List.map_map]
    rfl
  have fault : record.fields.readMembers depth s = .error ⟨cause, place⟩ := by
    unfold Fields.readMembers
    simp only [failed]
  obtain ⟨place', closed⟩ := @close_error (Row record.types) cause endObject place
  refine ⟨place', ?_⟩
  show (record.readRow (depth + 1) _).map _ = _
  rw [List.append_assoc, text, record.readRow_object hb, fault, closed]
  rfl

/-! ## Tables -/

namespace Shape

theorem exists_chain_entries {shape : Shape α} {keep : α → α} {height depth : Nat} (h : shape.Faithful keep height)
    (room : height ≤ depth) {layout : Layout} (sound : layout.Sound) (level : Nat) (entries : List (String × α))
    (t : Table α) :
    ∃ final, Chain (fun (t : Table α) name s =>
        (memberValue (shape.read depth) s).map fun (a, rest) => (t.insert name a, rest))
      t (entries.map fun p => (p.1, Tree.renderMember layout level (p.1, shape.write p.2))) final := by
  induction entries generalizing t with
  | nil => exact ⟨t, .nil⟩
  | cons p entries ih =>
    obtain ⟨final, chain⟩ := ih (t.insert p.1 (keep p.2))
    refine ⟨final, .cons (advances_renderMember fun rest ends => ?_) chain⟩
    simp only [h.memberValue sound level room p.2 rest ends]
    rfl

/-- A table that is written with an entry that its shape refuses is refused for the same cause. -/
theorem table_rejects {shape : Shape α} {keep : α → α} {height depth : Nat} (h : shape.Faithful keep height)
    (room : height ≤ depth) {layout : Layout} (sound : layout.Sound) {level : Nat} (before : List (String × α))
    {key : String} {v : Value} (rejects : shape.Rejects depth (v.render layout (level + 1)) cause)
    (after : List (String × Value)) :
    (table shape).Rejects (depth + 1)
      ((Tree.object (before.map (fun p => (p.1, shape.write p.2)) ++ (key, v) :: after)).render layout level)
      cause := by
  intro blanks hb rest _
  obtain ⟨t, chain⟩ := exists_chain_entries h room sound (level + 1) before .empty
  have refuses : Refuses (fun s => (memberValue (shape.read depth) s).map fun (a, rest) => (t.insert key a, rest))
      (layout.colon ++ v.render layout (level + 1)) cause := (rejects.memberValue sound).map _
  obtain ⟨s, hs, place, failed⟩ := members_stumbles sound level rest chain (stumbles_renderMember refuses)
    (after.map (Tree.renderMember layout (level + 1)))
  have text : (Tree.object (before.map (fun p => (p.1, shape.write p.2)) ++ (key, v) :: after)).render layout level
      ++ rest = '{' :: s := by
    rw [← hs, Tree.render_object]
    simp only [List.map_append, List.map_cons, List.map_map]
    rfl
  obtain ⟨place', closed⟩ := @close_error (Table α) cause endObject place
  refine ⟨place', ?_⟩
  rw [List.append_assoc, text]
  show container '{' "a map" _ (depth + 1) _ = _
  rw [container_blanks (by decide) _ _ hb (Nat.succ_le_succ (Nat.zero_le depth))]
  exact (congrArg (close endObject) failed).trans closed

end Shape

end Courier.Json
