import Mathlib.Data.List.Forall2

set_option autoImplicit false

/-! # Lists

Two lists are related if they are of one length and the relation holds from one place to the next
(`List.Forall₂`). Here is what is needed of such lists: how they are taken apart, what the elements of one of
them have in common, and how a relation with one of them is one with the other. Besides, a list is taken apart at
the first element of a kind.
-/

namespace Courier

variable {α β γ : Type} {R : α → β → Prop} {S : β → γ → Prop} {T : α → γ → Prop}

theorem exists_first {P : α → Prop} [DecidablePred P] {l : List α} (h : ∃ a ∈ l, P a) :
    ∃ before a after, l = before ++ a :: after ∧ (∀ b ∈ before, ¬P b) ∧ P a := by
  have some : (l.find? fun a => P a).isSome := List.find?_isSome.2 (by simpa using h)
  obtain ⟨a, found⟩ := Option.isSome_iff_exists.1 some
  obtain ⟨holds, before, after, split, others⟩ := List.find?_eq_some_iff_append.1 found
  exact ⟨before, a, after, split, by simpa using others, by simpa using holds⟩

theorem forall_mem_of_forall₂ {P : α → Prop} {l : List α} {u : List β} (all : List.Forall₂ R l u)
    (told : ∀ a b, R a b → P a) : ∀ a ∈ l, P a :=
  ((List.forall₂_and_left l u).1 (all.imp fun a b h => ⟨told a b h, h⟩)).1

/-- A list is related to one that is put together exactly if its parts are related to the parts. -/
theorem forall₂_append_left_iff {l l' : List α} {u : List β} :
    List.Forall₂ R (l ++ l') u ↔ ∃ v v', u = v ++ v' ∧ List.Forall₂ R l v ∧ List.Forall₂ R l' v' := by
  constructor
  · intro all
    refine ⟨u.take l.length, u.drop l.length, (List.take_append_drop _ _).symm, ?_, ?_⟩
    · simpa using List.forall₂_take l.length all
    · simpa using List.forall₂_drop l.length all
  · rintro ⟨v, v', rfl, first, second⟩
    exact List.rel_append first second

/-- Each element is related to some other exactly if the list is related to some other. -/
theorem exists_forall₂_iff {l : List α} : (∃ u, List.Forall₂ R l u) ↔ ∀ a ∈ l, ∃ b, R a b := by
  induction l with
  | nil => simp
  | cons a l ih =>
    rw [List.forall_mem_cons, ← ih]
    constructor
    · rintro ⟨u, all⟩
      obtain ⟨b, v, first, others, -⟩ := List.forall₂_cons_left_iff.1 all
      exact ⟨⟨b, first⟩, v, others⟩
    · rintro ⟨⟨b, first⟩, v, others⟩
      exact ⟨b :: v, .cons first others⟩

/-- What stands beside a list may be told from the list that stands beside it. -/
theorem forall₂_congr_of_forall₂ {l : List α} {u : List β} (all : List.Forall₂ R l u)
    (same : ∀ a b, R a b → ∀ c, T a c ↔ S b c) (w : List γ) : List.Forall₂ T l w ↔ List.Forall₂ S u w := by
  induction all generalizing w with
  | nil => rw [List.forall₂_nil_left_iff, List.forall₂_nil_left_iff]
  | cons first _ ih =>
    rw [List.forall₂_cons_left_iff, List.forall₂_cons_left_iff]
    simp only [same _ _ first, ih]

end Courier
