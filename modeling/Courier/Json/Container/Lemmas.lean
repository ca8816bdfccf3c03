import Courier.Json.Container
import Courier.Json.Writer

set_option autoImplicit false

/-! # What stands between the parts of a container

Both layouts put nothing but blanks between the parts of a container (`Layout.Sound`). So a reader that looks
for the next item of an array, or for the next name of an object, finds it where it was written, or finds the
closing bracket.
-/

namespace Courier.Json

/-! ## Blanks -/

def Blanks (s : List Char) : Prop := ∀ c ∈ s, isSpace c = true

theorem dropSpace_append {blanks : List Char} (h : Blanks blanks) (s : List Char) :
    dropSpace (blanks ++ s) = dropSpace s :=
  List.dropWhile_append_of_pos h

theorem dropSpace_cons {c : Char} (h : isSpace c = false) (s : List Char) :
    dropSpace (c :: s) = c :: s := by
  simp [dropSpace, h]

/-- The layout puts nothing but blanks between parts, and a colon after a name. -/
structure Layout.Sound (layout : Layout) : Prop where
  newline : ∀ depth, Blanks (layout.newline depth)
  colon : ∃ blanks, layout.colon = ':' :: blanks ∧ Blanks blanks

theorem Layout.sound_compact : Layout.compact.Sound where
  newline _ _ h := by simp [Layout.compact] at h
  colon := ⟨[], rfl, by simp [Blanks]⟩

theorem Layout.sound_wide : Layout.wide.Sound where
  newline depth c h := by
    simp only [Layout.wide, List.mem_cons, List.mem_replicate] at h
    rcases h with rfl | ⟨_, rfl⟩ <;> rfl
  colon := ⟨[' '], rfl, by simp [Blanks, isSpace]⟩

/-! ## One item after another -/

/-- The text starts with a character that neither stands between the parts of a container nor ends
one. -/
def Starts (s : List Char) : Prop :=
  ∃ c t, s = c :: t ∧ isSpace c = false ∧ c ≠ ']' ∧ c ≠ '}' ∧ c ≠ ','

/-- After the text nothing follows that could belong to a part of a container. -/
def EndsPart (s : List Char) : Prop :=
  ∀ c ∈ s.head?, isSpace c = true ∨ c = ',' ∨ c = ']' ∨ c = '}'

theorem nextItem_first {blanks s rest : List Char} (h : Blanks blanks) (starts : Starts s) :
    nextItem true (blanks ++ (s ++ rest)) = .ok (true, s ++ rest) := by
  obtain ⟨c, t, rfl, notSpace, notClose, -, -⟩ := starts
  rw [nextItem, dropSpace_append h, List.cons_append, dropSpace_cons notSpace]
  simp [notClose]

theorem nextItem_comma {before after s rest : List Char} (hb : Blanks before) (ha : Blanks after)
    (starts : Starts s) :
    nextItem false (before ++ ',' :: (after ++ (s ++ rest))) = .ok (true, s ++ rest) := by
  obtain ⟨c, t, rfl, notSpace, notClose, -, -⟩ := starts
  rw [nextItem, dropSpace_append hb, dropSpace_cons (by decide)]
  -- A comma, and it does not come first.
  simp only [Char.reduceEq, if_false, if_true, Bool.false_eq_true]
  rw [dropSpace_append ha, List.cons_append, dropSpace_cons notSpace]
  simp [notClose]

theorem nextItem_close {blanks rest : List Char} (h : Blanks blanks) (first : Bool) :
    nextItem first (blanks ++ ']' :: rest) = .ok (false, ']' :: rest) := by
  rw [nextItem, dropSpace_append h, dropSpace_cons (by decide)]
  simp

/-! ## One member after another -/

theorem nextName_first {blanks rest : List Char} (h : Blanks blanks) :
    nextName true (blanks ++ '"' :: rest) = memberName '"' rest := by
  rw [nextName, dropSpace_append h, dropSpace_cons (by decide)]
  simp

theorem nextName_comma {before after rest : List Char} (hb : Blanks before) (ha : Blanks after) :
    nextName false (before ++ ',' :: (after ++ '"' :: rest)) = memberName '"' rest := by
  rw [nextName, dropSpace_append hb, dropSpace_cons (by decide)]
  simp only [Char.reduceEq, if_false, if_true, Bool.false_eq_true]
  rw [dropSpace_append ha, dropSpace_cons (by decide)]
  simp

theorem nextName_close {blanks rest : List Char} (h : Blanks blanks) (first : Bool) :
    nextName first (blanks ++ '}' :: rest) = .ok (none, '}' :: rest) := by
  rw [nextName, dropSpace_append h, dropSpace_cons (by decide)]
  simp

end Courier.Json
