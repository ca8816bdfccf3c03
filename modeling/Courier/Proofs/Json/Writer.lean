import Courier.Json.Container.Lemmas
import Courier.Proofs.Text.Decimal

set_option autoImplicit false

/-! # How written values begin

Whatever a value is, its text begins with a character that tells it from a blank, from a closing bracket and
from a comma, and only `null` begins with the letter of `null` (`render_head`). A reader of optional data
relies on the latter.
-/

namespace Courier.Json

/-! ## Texts -/

theorem escape_plain {c : Char} (notQuote : c ≠ '"') (notEscape : c ≠ '\\') (notControl : 0x20 ≤ c.toNat) :
    escape c = [c] := by
  have notBelow : ∀ d : Char, d.toNat < 0x20 → c ≠ d := by
    rintro d below rfl
    omega
  unfold escape
  rw [if_neg notQuote, if_neg notEscape, if_neg (notBelow _ (by decide)), if_neg (notBelow _ (by decide)),
    if_neg (notBelow _ (by decide)), if_neg (notBelow _ (by decide)), if_neg (notBelow _ (by decide)),
    if_neg (by omega)]

/-! ## Numbers -/

theorem not_isSpace_of_isDigit {c : Char} (h : c.isDigit = true) : isSpace c = false := by
  unfold isSpace
  simp only [Bool.or_eq_false_iff, beq_eq_false_iff_ne]
  refine ⟨⟨⟨?_, ?_⟩, ?_⟩, ?_⟩
  all_goals exact Decimal.ne_of_isDigit h (by decide)

def BeginsNumeral (s : List Char) : Prop := ∃ c t, s = c :: t ∧ (c = '-' ∨ c.isDigit = true)

theorem beginsNumeral_digits (n : Nat) (rest : List Char) : BeginsNumeral (Decimal.digits n ++ rest) := by
  obtain ⟨c, t, ht, digit, -⟩ := Decimal.digits_eq_cons n
  exact ⟨c, t ++ rest, by rw [ht, List.cons_append], .inr digit⟩

theorem beginsNumeral_take (n : Nat) {count : Nat} (h : 0 < count) (rest : List Char) :
    BeginsNumeral ((Decimal.digits n).take count ++ rest) := by
  obtain ⟨c, t, ht, digit, -⟩ := Decimal.digits_eq_cons n
  obtain ⟨count, rfl⟩ : ∃ k, count = k + 1 := ⟨count - 1, by omega⟩
  exact ⟨c, t.take count ++ rest, by rw [ht, List.take_succ_cons, List.cons_append], .inr digit⟩

theorem beginsNumeral_integerText (n : Int) : BeginsNumeral (Number.integerText n) := by
  unfold Number.integerText
  by_cases negative : n < 0
  · rw [if_pos negative]
    exact ⟨'-', _, rfl, .inl rfl⟩
  · rw [if_neg negative, ← List.append_nil (Decimal.digits n.natAbs)]
    exact beginsNumeral_digits _ _

theorem beginsNumeral_decimalText (d : Binary64.Decimal) : BeginsNumeral (Number.decimalText d) := by
  unfold Number.decimalText
  simp only
  split
  · split
    · rw [List.append_assoc]
      exact beginsNumeral_digits _ _
    · split
      · exact beginsNumeral_take _ (by omega) _
      · exact ⟨'0', _, rfl, .inr rfl⟩
  · rw [List.append_assoc]
    exact beginsNumeral_take _ (by omega) _

theorem beginsNumeral_text (n : Number) : BeginsNumeral n.text := by
  cases n with
  | integer n _ => exact beginsNumeral_integerText n
  | double x =>
    show BeginsNumeral (Number.doubleText x)
    unfold Number.doubleText
    simp only
    split
    · exact ⟨'-', _, rfl, .inl rfl⟩
    · split
      · exact ⟨'0', _, rfl, .inr rfl⟩
      · exact beginsNumeral_decimalText _

/-! ## Values -/

theorem Layout.exists_enclose (layout : Layout) (depth : Nat) (first last : Char) (parts : List (List Char)) :
    ∃ t, layout.enclose depth first last parts = first :: t := by
  cases parts with
  | nil => exact ⟨_, rfl⟩
  | cons part parts => exact ⟨_, rfl⟩

namespace Tree

/-- The character that a written value begins with. -/
theorem render_head (layout : Layout) (depth : Nat) (v : Value) :
    ∃ c t, v.render layout depth = c :: t ∧
      (isSpace c = false ∧ c ≠ ']' ∧ c ≠ '}' ∧ c ≠ ',') ∧ (c = 'n' → v = .null) := by
  cases v with
  | null => exact ⟨'n', _, rfl, by decide, fun _ => rfl⟩
  | boolean b =>
    cases b with
    | false => exact ⟨'f', _, rfl, by decide, fun h => absurd h (by decide)⟩
    | true => exact ⟨'t', _, rfl, by decide, fun h => absurd h (by decide)⟩
  | number n =>
    obtain ⟨c, t, ht, hc⟩ := beginsNumeral_text n
    refine ⟨c, t, ht, ?_, ?_⟩
    · rcases hc with rfl | digit
      · decide
      · -- A digit is none of the characters that stand between parts.
        refine ⟨not_isSpace_of_isDigit digit, ?_, ?_, ?_⟩
        all_goals exact Decimal.ne_of_isDigit digit (by decide)
    · rintro rfl
      rcases hc with hc | hc <;> exact absurd hc (by decide)
  | string s => exact ⟨'"', _, rfl, by decide, fun h => absurd h (by decide)⟩
  | array items =>
    obtain ⟨t, ht⟩ := layout.exists_enclose depth '[' ']' (renderItems layout (depth + 1) items)
    exact ⟨'[', t, by rw [render, ht], by decide, fun h => absurd h (by decide)⟩
  | object members =>
    obtain ⟨t, ht⟩ := layout.exists_enclose depth '{' '}' (renderMembers layout (depth + 1) members)
    exact ⟨'{', t, by rw [render, ht], by decide, fun h => absurd h (by decide)⟩

theorem starts_render (layout : Layout) (depth : Nat) (v : Value) : Starts (v.render layout depth) := by
  obtain ⟨c, t, ht, hc, -⟩ := render_head layout depth v
  exact ⟨c, t, ht, hc⟩

theorem renderItems_eq_map (layout : Layout) (depth : Nat) (items : List Value) :
    renderItems layout depth items = items.map (render layout depth) := by
  induction items with
  | nil => rfl
  | cons item items ih => rw [renderItems, ih, List.map_cons]

def renderMember (layout : Layout) (depth : Nat) (member : String × Value) : List Char :=
  textLiteral member.1 ++ layout.colon ++ member.2.render layout depth

theorem renderMembers_eq_map (layout : Layout) (depth : Nat) (members : List (String × Value)) :
    renderMembers layout depth members = members.map (renderMember layout depth) := by
  induction members with
  | nil => rfl
  | cons member members ih =>
    obtain ⟨name, item⟩ := member
    rw [renderMembers, ih, List.map_cons]
    rfl

theorem render_array (layout : Layout) (depth : Nat) (items : List Value) :
    (Tree.array items).render layout depth
      = layout.enclose depth '[' ']' (items.map (render layout (depth + 1))) := by
  rw [render, renderItems_eq_map]

theorem render_object (layout : Layout) (depth : Nat) (members : List (String × Value)) :
    (Tree.object members).render layout depth
      = layout.enclose depth '{' '}' (members.map (renderMember layout (depth + 1))) := by
  rw [render, renderMembers_eq_map]

end Tree

end Courier.Json
