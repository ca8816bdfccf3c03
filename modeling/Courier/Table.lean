set_option autoImplicit false

/-! # Tables in the order of their names

A table holds one entry per name, in the order of the names, which is that of their code points and so
also that of their UTF-8 bytes. Writing to a name that is there replaces its entry.
-/

namespace Courier

/-- Puts an entry into a list of entries that is in order. -/
def insertEntry {α : Type} (name : String) (a : α) : List (String × α) → List (String × α)
  | [] => [(name, a)]
  | (other, b) :: rest =>
    if name < other then (name, a) :: (other, b) :: rest
    else if name = other then (name, a) :: rest
    else (other, b) :: insertEntry name a rest

/-- The names of the list are in strictly rising order. -/
def InOrder {α : Type} (entries : List (String × α)) : Prop :=
  entries.Pairwise fun p q => p.1 < q.1

theorem mem_insertEntry {α : Type} {name : String} {a : α} {entries : List (String × α)}
    {p : String × α} (h : p ∈ insertEntry name a entries) : p = (name, a) ∨ p ∈ entries := by
  induction entries with
  | nil => simpa [insertEntry] using h
  | cons head rest ih =>
    obtain ⟨other, b⟩ := head
    simp only [insertEntry] at h
    split at h
    · simpa using h
    · split at h
      · rcases List.mem_cons.1 h with h | h
        · exact .inl h
        · exact .inr (List.mem_cons_of_mem _ h)
      · rcases List.mem_cons.1 h with h | h
        · exact .inr (h ▸ List.mem_cons_self)
        · rcases ih h with h | h
          · exact .inl h
          · exact .inr (List.mem_cons_of_mem _ h)

theorem InOrder.insertEntry {α : Type} {entries : List (String × α)} (h : InOrder entries)
    (name : String) (a : α) : InOrder (insertEntry name a entries) := by
  induction entries with
  | nil => simp [InOrder, Courier.insertEntry]
  | cons head rest ih =>
    obtain ⟨other, b⟩ := head
    obtain ⟨first, tail⟩ := List.pairwise_cons.1 h
    simp only [Courier.insertEntry]
    split
    · next lt =>
      refine List.pairwise_cons.2 ⟨fun p hp => ?_, h⟩
      rcases List.mem_cons.1 hp with rfl | hp
      · exact lt
      · exact String.lt_trans lt (first p hp)
    · next notLt =>
      split
      · next eq => exact List.pairwise_cons.2 ⟨fun p hp => eq ▸ first p hp, tail⟩
      · next ne =>
        refine List.pairwise_cons.2 ⟨fun p hp => ?_, ih tail⟩
        rcases mem_insertEntry hp with rfl | hp
        · -- Neither below nor equal: the new name is above.
          exact Decidable.byContradiction fun above =>
            ne (String.le_antisymm (String.not_lt.1 above) (String.not_lt.1 notLt))
        · exact first p hp

/-- One entry per name, in the order of the names. -/
structure Table (α : Type) where
  entries : List (String × α)
  inOrder : InOrder entries

namespace Table

variable {α β : Type}

instance [BEq α] : BEq (Table α) := ⟨fun s t => s.entries == t.entries⟩

def empty : Table α := ⟨[], List.Pairwise.nil⟩

def insert (t : Table α) (name : String) (a : α) : Table α :=
  ⟨insertEntry name a t.entries, t.inOrder.insertEntry name a⟩

/-- The table of a list of entries; of two under one name the later one stays. -/
def ofList (entries : List (String × α)) : Table α :=
  entries.foldl (fun t p => t.insert p.1 p.2) empty

def get? (t : Table α) (name : String) : Option α := t.entries.lookup name

end Table

end Courier
