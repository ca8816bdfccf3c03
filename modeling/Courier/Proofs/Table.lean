import Courier.Table
import Courier.Proofs.Lists
import Mathlib.Data.List.Induction

set_option autoImplicit false

/-! # What a table holds

Putting an entry into a table changes what it holds under the name of the entry, and nothing else
(`Table.get?_insert`). So a table that is made of a list of entries holds under each name what the last entry
of the name says (`Table.get?_ofList_eq_some_iff`).
-/

namespace Courier

variable {α : Type}

/-- The last entry of the name in a list holds `a`. -/
def LastUnder (name : String) (entries : List (String × α)) (a : α) : Prop :=
  ∃ before after, entries = before ++ (name, a) :: after ∧ name ∉ after.map Prod.fst

theorem exists_lastUnder {entries : List (String × α)} {name : String} (h : name ∈ entries.map Prod.fst) :
    ∃ a, LastUnder name entries a := by
  induction entries with
  | nil => exact absurd h List.not_mem_nil
  | cons p entries ih =>
    by_cases again : name ∈ entries.map Prod.fst
    · obtain ⟨a, before, after, rfl, last⟩ := ih again
      exact ⟨a, p :: before, after, rfl, last⟩
    · obtain rfl : name = p.1 := (List.mem_cons.1 h).resolve_right again
      exact ⟨p.2, [], entries, rfl, again⟩

theorem LastUnder.mem {entries : List (String × α)} {name : String} {a : α} (h : LastUnder name entries a) :
    name ∈ entries.map Prod.fst := by
  obtain ⟨before, after, rfl, -⟩ := h
  simp

section Beside

variable {β : Type} {R : α → β → Prop} {entries : List (String × α)} {others : List (String × β)}

/-- Entries side by side have the same names if each two of them have one. -/
theorem map_fst_of_forall₂ {Q : String × α → String × β → Prop} (all : List.Forall₂ Q entries others)
    (named : ∀ p q, Q p q → p.1 = q.1) : entries.map Prod.fst = others.map Prod.fst := by
  induction all with
  | nil => rfl
  | cons first _ ih => rw [List.map_cons, List.map_cons, named _ _ first, ih]

/-- Of entries side by side the last ones of a name stand side by side, too. -/
theorem lastUnder_iff_of_forall₂ (unique : Relator.RightUnique R)
    (all : List.Forall₂ (fun p q => p.1 = q.1 ∧ R p.2 q.2) entries others) {name : String} {b : β} :
    LastUnder name others b ↔ ∃ a, LastUnder name entries a ∧ R a b := by
  constructor
  · rintro ⟨before, after, rfl, last⟩
    obtain ⟨v, v', rfl, -, rest⟩ := forall₂_append_left_iff.1 (List.Forall₂.flip all)
    obtain ⟨⟨name', a⟩, w, ⟨rfl, holds⟩, behind, rfl⟩ := List.forall₂_cons_left_iff.1 rest
    rw [map_fst_of_forall₂ behind fun _ _ told => told.1.symm] at last
    exact ⟨a, ⟨v, w, rfl, last⟩, holds⟩
  · rintro ⟨a, ⟨before, after, rfl, last⟩, holds⟩
    obtain ⟨v, v', rfl, -, rest⟩ := forall₂_append_left_iff.1 all
    obtain ⟨⟨name', b'⟩, w, ⟨rfl, holds'⟩, behind, rfl⟩ := List.forall₂_cons_left_iff.1 rest
    rw [map_fst_of_forall₂ behind fun _ _ told => told.1] at last
    exact ⟨v, w, by rw [unique holds holds'], last⟩

end Beside

theorem lookup_insertEntry_self (name : String) (a : α) (entries : List (String × α)) :
    (insertEntry name a entries).lookup name = some a := by
  induction entries with
  | nil => exact List.lookup_cons_self
  | cons head rest ih =>
    obtain ⟨other, b⟩ := head
    rw [insertEntry]
    split
    · exact List.lookup_cons_self
    · split
      · exact List.lookup_cons_self
      · next ne =>
        rw [List.lookup_cons, beq_eq_false_iff_ne.2 ne]
        exact ih

theorem lookup_insertEntry_other {name other : String} (ne : other ≠ name) (a : α)
    (entries : List (String × α)) : (insertEntry name a entries).lookup other = entries.lookup other := by
  have away : ∀ rest : List (String × α), ((name, a) :: rest).lookup other = rest.lookup other := by
    intro rest
    rw [List.lookup_cons, beq_eq_false_iff_ne.2 ne]
  induction entries with
  | nil => exact away []
  | cons head rest ih =>
    obtain ⟨next, b⟩ := head
    rw [insertEntry]
    split
    · exact away _
    · split
      · next same =>
        subst same
        rw [away, List.lookup_cons, beq_eq_false_iff_ne.2 ne]
      · rw [List.lookup_cons, List.lookup_cons, ih]

theorem insertEntry_perm {name : String} (a : α) {entries : List (String × α)}
    (fresh : name ∉ entries.map Prod.fst) : (insertEntry name a entries).Perm ((name, a) :: entries) := by
  induction entries with
  | nil => exact .refl _
  | cons head rest ih =>
    rw [List.map_cons, List.mem_cons, not_or] at fresh
    rw [insertEntry]
    split
    · exact .refl _
    · rw [if_neg fresh.1]
      exact ((ih fresh.2).cons head).trans (.swap ..)

namespace Table

/-- The entry that is put in is held under its name, and under all other names nothing changes. -/
theorem get?_insert (t : Table α) (name other : String) (a : α) :
    (t.insert name a).get? other = if other = name then some a else t.get? other := by
  split
  · next same => exact same ▸ lookup_insertEntry_self name a t.entries
  · next ne => exact lookup_insertEntry_other ne a t.entries

theorem ofList_append (entries : List (String × α)) (p : String × α) :
    ofList (entries ++ [p]) = (ofList entries).insert p.1 p.2 := by
  unfold ofList
  rw [List.foldl_append]
  rfl

/-- The later of two entries counts. -/
theorem get?_ofList (entries : List (String × α)) (name : String) :
    (ofList entries).get? name = entries.reverse.lookup name := by
  induction entries using List.reverseRecOn with
  | nil => rfl
  | append_singleton entries p ih =>
    rw [ofList_append, get?_insert, ih, List.reverse_append, List.reverse_singleton, List.singleton_append,
      List.lookup_cons]
    by_cases same : name = p.1
    · rw [if_pos same, beq_iff_eq.2 same]
    · rw [if_neg same, beq_eq_false_iff_ne.2 same]

/-- A table of a list of entries holds what the last entry of a name says, and nothing under other names. -/
theorem get?_ofList_eq_some_iff {entries : List (String × α)} {name : String} {a : α} :
    (ofList entries).get? name = some a ↔ LastUnder name entries a := by
  rw [get?_ofList, List.lookup_eq_some_iff]
  constructor
  · rintro ⟨after, before, split, others⟩
    refine ⟨before.reverse, after.reverse, ?_, ?_⟩
    · rw [← List.reverse_reverse entries, split]
      simp
    · intro again
      obtain ⟨p, hp, same⟩ := List.mem_map.1 again
      exact bne_iff_ne.1 (others p (List.mem_reverse.1 hp)) same.symm
  · rintro ⟨before, after, rfl, last⟩
    refine ⟨after.reverse, before.reverse, by simp, fun p hp => bne_iff_ne.2 fun same => last ?_⟩
    exact List.mem_map.2 ⟨p, List.mem_reverse.1 hp, same.symm⟩

theorem get?_of_mem {t : Table α} {p : String × α} (h : p ∈ t.entries) : t.get? p.1 = some p.2 := by
  obtain ⟨before, after, split⟩ := List.append_of_mem h
  have others : ∀ q ∈ before, q.1 < p.1 := by
    have inOrder := t.inOrder
    rw [split] at inOrder
    exact fun q hq => (List.pairwise_append.1 inOrder).2.2 q hq p List.mem_cons_self
  refine List.lookup_eq_some_iff.2 ⟨before, after, split, fun q hq => ?_⟩
  exact bne_iff_ne.2 fun same => String.lt_irrefl _ (same ▸ others q hq)

theorem mem_names_ofList {entries : List (String × α)} {name : String} :
    name ∈ (ofList entries).entries.map Prod.fst ↔ name ∈ entries.map Prod.fst := by
  constructor
  · intro h
    obtain ⟨p, hp, rfl⟩ := List.mem_map.1 h
    exact (get?_ofList_eq_some_iff.1 (get?_of_mem hp)).mem
  · intro h
    obtain ⟨a, last⟩ := exists_lastUnder h
    obtain ⟨before, after, split, -⟩ := List.lookup_eq_some_iff.1 (get?_ofList_eq_some_iff.2 last)
    rw [split]
    simp

/-- Entries of different names are all kept. -/
theorem entries_ofList_perm {entries : List (String × α)} (distinct : (entries.map Prod.fst).Nodup) :
    (ofList entries).entries.Perm entries := by
  induction entries using List.reverseRecOn with
  | nil => exact .refl _
  | append_singleton entries p ih =>
    rw [List.map_append, List.nodup_append] at distinct
    have fresh : p.1 ∉ (ofList entries).entries.map Prod.fst :=
      fun again => distinct.2.2 p.1 (mem_names_ofList.1 again) p.1 List.mem_cons_self rfl
    rw [ofList_append]
    have first := (ih distinct.1).cons p
    exact (insertEntry_perm p.2 fresh).trans <| first.trans (List.perm_append_singleton p entries).symm

end Table

end Courier
