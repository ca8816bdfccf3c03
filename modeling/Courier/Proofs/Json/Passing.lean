import Courier.Json.Skip
import Courier.Proofs.Json.Grammar
import Courier.Proofs.Json.Numeral
import Courier.Proofs.Json.Success
import Courier.Proofs.Json.Writer
import Mathlib.Data.List.DropRight

set_option autoImplicit false

/-! # Passing over a value

The text of a value is passed over to its end, whatever the value is (`skip_wellFormed`), if what follows
ends it. The loop knows nothing of the value but the containers that are open, so its law is about any of
them (`Skip.Passes`), and leaves fuel for what follows. Since the loop stops at one place only, no text begins
with two values (`WellFormed.unique`).
-/

namespace Courier.Json

theorem dropSpace_eq_nil_iff {s : List Char} : dropSpace s = [] ↔ Blanks s :=
  List.dropWhile_eq_nil_iff

/-- Blanks before what ends a part end it, too. -/
theorem endsPart_append {blanks rest : List Char} (hb : Blanks blanks) (ends : EndsPart rest) :
    EndsPart (blanks ++ rest) := by
  cases blanks with
  | nil => exact ends
  | cons c blanks => exact endsPart_cons (.inl (hb c List.mem_cons_self)) _

theorem endsPart_of_blanks {blanks : List Char} (hb : Blanks blanks) : EndsPart blanks := by
  have ends := endsPart_append hb endsPart_nil
  rwa [List.append_nil] at ends

/-! ## Literals -/

namespace Literal

theorem readUnit_number {a b c d : Char} {n : Nat} (number : hexUnit? a b c d = some n) (rest : List Char) :
    readUnit (a :: b :: c :: d :: rest) = .ok (n, rest) := by
  simp [readUnit, number]

/-- No short escape has the letter of an escape by number. -/
theorem ne_of_shortEscape? {letter c : Char} (meant : shortEscape? letter = some c) : letter ≠ 'u' := by
  rintro rfl
  cases meant

theorem skip_inside {s : List Char} (h : Inside s) (rest : List Char) :
    skip (s ++ '"' :: rest) = .ok rest := by
  induction h with
  | nil => exact skip_quote rest
  | plain notQuote notEscape notControl _ ih =>
    rw [List.cons_append, skip_plain notQuote notEscape notControl, ih]
  | @short letter c s meant _ ih =>
    have passed : skipEscape (letter :: (s ++ '"' :: rest)) = .ok (s ++ '"' :: rest) := by
      simp [skipEscape, ne_of_shortEscape? meant, meant]
    rw [List.cons_append, List.cons_append, skip_escaped passed, ih]
  | @unit a b c d n s number _ ih =>
    have passed : skipEscape ('u' :: a :: b :: c :: d :: (s ++ '"' :: rest)) = .ok (s ++ '"' :: rest) := by
      simp [skipEscape, readUnit_number number]
    simp only [List.cons_append]
    rw [skip_escaped passed, ih]

end Literal

/-! ## Numerals -/

namespace Numeral

open Decimal

theorem noDigit_exponent {exponent rest : List Char} (h : Exponent exponent) (ends : NoDigit rest) :
    NoDigit (exponent ++ rest) := by
  cases h with
  | none => exact ends
  | some isLetter _ _ =>
    refine noDigit_cons ?_ _
    rcases isLetter with rfl | rfl <;> decide

theorem noDigit_fraction {ds fraction rest : List Char} (h : Fraction ds fraction) (ends : NoDigit rest) :
    NoDigit (fraction ++ rest) := by
  cases h with
  | none => exact ends
  | some digits => exact noDigit_cons (by decide) _

/-- A sign is taken off if there is one, and no digit is taken for one. -/
theorem splitSign_append {sign ds rest : List Char} (isSign : sign = [] ∨ sign = ['+'] ∨ sign = ['-'])
    (digits : Digits ds) :
    splitSign (sign ++ ds ++ rest) = (sign == ['-'], ds ++ rest) := by
  obtain ⟨some, digits⟩ := digits
  obtain ⟨c, ds, rfl⟩ := List.exists_cons_of_ne_nil some
  have digit := digits c List.mem_cons_self
  rcases isSign with rfl | rfl | rfl
  · have notMinus : c ≠ '-' := ne_of_isDigit digit (by decide)
    have notPlus : c ≠ '+' := ne_of_isDigit digit (by decide)
    simp [splitSign, notMinus, notPlus]
  · simp [splitSign]
  · simp [splitSign]

theorem skipDigits_append {ds rest : List Char} (h : Digits ds) (ends : NoDigit rest) :
    skipDigits (ds ++ rest) = .ok rest := by
  obtain ⟨some, digits⟩ := h
  unfold skipDigits
  rw [splitDigits_append digits ends]
  cases ds with
  | nil => exact absurd rfl some
  | cons c ds => rfl

theorem skipExponent_append {exponent rest : List Char} (h : Exponent exponent) (ends : EndsPart rest) :
    skipExponent (exponent ++ rest) = .ok rest := by
  cases h with
  | none =>
    cases rest with
    | nil => rfl
    | cons c rest =>
      obtain ⟨-, -, notSmall, notLarge⟩ := endsPart_head ends (c := c) (by simp)
      simp [skipExponent, notSmall, notLarge]
  | some isLetter isSign digits =>
    rw [List.cons_append, skipExponent, if_pos isLetter, splitSign_append isSign digits]
    exact skipDigits_append digits (noDigit_of_endsPart ends)

theorem skipFraction_append {ds fraction exponent rest : List Char} (h : Fraction ds fraction)
    (he : Exponent exponent) (ends : EndsPart rest) :
    skipFraction (fraction ++ (exponent ++ rest)) = .ok rest := by
  have after := skipExponent_append he ends
  cases h with
  | none =>
    rw [List.nil_append]
    cases s : exponent ++ rest with
    | nil =>
      rw [s] at after
      exact after
    | cons c tail =>
      have notPoint : c ≠ '.' := by
        cases he with
        | none => exact (endsPart_head ends (c := c) (by simp at s; simp [s])).2.1
        | some isLetter _ _ =>
          rw [← (List.cons.inj s).1]
          rcases isLetter with rfl | rfl <;> decide
      rw [skipFraction, if_neg notPoint, ← s, after]
  | some digits =>
    have noDigit := noDigit_exponent he (noDigit_of_endsPart ends)
    rw [List.cons_append, skipFraction, if_pos rfl, skipDigits_append digits noDigit]
    exact after

theorem skip_unsigned {s rest : List Char} (h : Unsigned s) (ends : EndsPart rest) :
    skip (s ++ rest) = .ok rest := by
  obtain ⟨whole, ds, fraction, exponent, rfl, hw, hf, he⟩ := h
  have after := skipFraction_append hf he ends
  have noDigit := noDigit_fraction hf (noDigit_exponent he (noDigit_of_endsPart ends))
  rw [List.append_assoc, List.append_assoc]
  cases hw with
  | zero =>
    generalize fraction ++ (exponent ++ rest) = tail at after noDigit
    cases tail with
    | nil => exact after
    | cons d tail =>
      have other : d.isDigit = false := noDigit d (by simp)
      rw [← after]
      simp [skip, other]
  | digits digit notZero more =>
    rw [List.cons_append, ← after]
    simp only [skip, if_neg notZero, if_pos digit, splitDigits_append more noDigit]

end Numeral

/-! ## How a value begins -/

theorem isDigit_of_whole {whole : List Char} (h : Numeral.Whole whole) :
    ∃ c s, whole = c :: s ∧ c.isDigit = true := by
  cases h with
  | zero => exact ⟨'0', [], rfl, rfl⟩
  | digits digit _ _ => exact ⟨_, _, rfl, digit⟩

theorem Numeral.Unsigned.begins {s : List Char} (h : Unsigned s) :
    ∃ c t, s = c :: t ∧ c.isDigit = true := by
  obtain ⟨whole, ds, fraction, exponent, rfl, hw, -, -⟩ := h
  obtain ⟨c, t, rfl, digit⟩ := isDigit_of_whole hw
  exact ⟨c, _, rfl, digit⟩

/-- Whatever a value is, its text begins with a character that tells it from what stands between values. -/
theorem WellFormed.starts {t : List Char} (h : WellFormed t) : Starts t := by
  cases h with
  | numeral unsigned =>
    obtain ⟨c, s, rfl, digit⟩ := unsigned.begins
    refine ⟨c, s, rfl, not_isSpace_of_isDigit digit, ?_, ?_, ?_⟩
    all_goals exact Decimal.ne_of_isDigit digit (by decide)
  | null => exact ⟨_, _, rfl, by decide⟩
  | true => exact ⟨_, _, rfl, by decide⟩
  | false => exact ⟨_, _, rfl, by decide⟩
  | negative _ => exact ⟨_, _, rfl, by decide⟩
  | literal _ => exact ⟨_, _, rfl, by decide⟩
  | array _ _ _ => exact ⟨_, _, rfl, by decide⟩
  | object _ _ _ _ => exact ⟨_, _, rfl, by decide⟩

namespace Skip

/-! ## Plain values -/

theorem start_blanks {blanks : List Char} (h : Blanks blanks) (s : List Char) :
    start (blanks ++ s) = start s := by
  unfold start
  rw [dropSpace_append h]

/-- The first character that is no blank decides what a value is. -/
theorem start_numeral {s rest : List Char} (h : Numeral.Unsigned s) (ends : EndsPart rest) :
    start (s ++ rest) = .ok (none, rest) := by
  have passed := Numeral.skip_unsigned h ends
  obtain ⟨c, t, rfl, digit⟩ := h.begins
  have other : ∀ d : Char, d.isDigit = false → c ≠ d := fun d => Decimal.ne_of_isDigit digit
  rw [List.cons_append] at passed ⊢
  unfold start
  rw [dropSpace_cons (not_isSpace_of_isDigit digit)]
  simp only [if_neg (other 'n' (by decide)), if_neg (other 't' (by decide)),
    if_neg (other 'f' (by decide)), if_neg (other '-' (by decide)), if_pos digit, passed]
  rfl

theorem start_negative {s rest : List Char} (h : Numeral.Unsigned s) (ends : EndsPart rest) :
    start ('-' :: (s ++ rest)) = .ok (none, rest) := by
  unfold start
  rw [dropSpace_cons (by decide)]
  simp [Numeral.skip_unsigned h ends, Except.map]

theorem start_literal {s : List Char} (h : Literal.Inside s) (rest : List Char) :
    start ('"' :: (s ++ '"' :: rest)) = .ok (none, rest) := by
  unfold start
  rw [dropSpace_cons (by decide)]
  simp [Literal.skip_inside h, Except.map]

/-! ## Inside containers -/

/-- The text of a value is passed over, whatever stands before and behind it. Three steps for each of its
characters are enough, and what is left of them serves what follows. -/
def Passes (t : List Char) : Prop :=
  ∀ (blanks rest : List Char) (opened : List Open) (fuel spare : Nat), Blanks blanks → EndsPart rest →
    3 * t.length + spare ≤ fuel →
      ∃ left, spare ≤ left ∧ value fuel opened (blanks ++ (t ++ rest)) = next left false opened rest

theorem passes_of_start {t : List Char} (some : t ≠ [])
    (plain : ∀ rest, EndsPart rest → start (t ++ rest) = .ok (none, rest)) : Passes t := by
  intro blanks rest opened fuel spare hb ends enough
  have := List.length_pos_of_ne_nil some
  obtain ⟨fuel, rfl⟩ : ∃ k, fuel = k + 1 := ⟨fuel - 1, by omega⟩
  refine ⟨fuel, by omega, ?_⟩
  rw [value, start_blanks hb, plain rest ends]

theorem next_blanks {fuel : Nat} (some : 0 < fuel) (o : Open) (opened : List Open) {blanks : List Char}
    (hb : Blanks blanks) (s : List Char) :
    next fuel false (o :: opened) (blanks ++ s) = next fuel false (o :: opened) s := by
  obtain ⟨fuel, rfl⟩ : ∃ k, fuel = k + 1 := ⟨fuel - 1, by omega⟩
  rw [next, next, dropSpace_append hb]

/-- A part of a container may be looked at without the blanks at its head. -/
theorem item_dropSpace {fuel : Nat} (some : 1 < fuel) (o : Open) (opened : List Open) (s : List Char) :
    item fuel o opened (dropSpace s) = item fuel o opened s := by
  have twice : dropSpace (dropSpace s) = dropSpace s := List.dropWhile_idempotent _ _
  obtain ⟨fuel, rfl⟩ : ∃ k, fuel = k + 2 := ⟨fuel - 2, by omega⟩
  cases o with
  | array => simp only [item, head, value, start, twice]
  | object => simp only [item, head, twice]

/-- The text of an item, or of a member, of a container, and the blanks around it. -/
structure Part (o : Open) (p : List Char) : Prop where
  begins : ∀ rest, ∃ c t, dropSpace (p ++ rest) = c :: t ∧ c ≠ o.closing
  passes : ∀ (rest : List Char) (opened : List Open) (fuel spare : Nat), EndsPart rest →
    3 * p.length + 2 + spare ≤ fuel →
      ∃ left, spare ≤ left ∧ item fuel o opened (p ++ rest) = next left false (o :: opened) rest

/-- A comma or the closing bracket comes after a part. -/
theorem endsPart_following (o : Open) (parts : List (List Char)) (rest : List Char) :
    EndsPart (moreParts parts ++ o.closing :: rest) := by
  cases parts with
  | nil => cases o <;> exact endsPart_cons (by decide) _
  | cons part parts => exact endsPart_cons (by decide) _

theorem dropSpace_closing (o : Open) (rest : List Char) :
    dropSpace (o.closing :: rest) = o.closing :: rest := by
  cases o <;> exact dropSpace_cons (by decide) _

theorem comma_ne_closing (o : Open) : ',' ≠ o.closing := by
  cases o <;> decide

/-- The parts after the first one are passed over one by one, to the closing bracket. -/
theorem next_following {o : Open} {parts : List (List Char)} (h : ∀ p ∈ parts, Part o p)
    (opened : List Open) (rest : List Char) {fuel spare : Nat}
    (enough : 3 * (moreParts parts).length + 1 + spare ≤ fuel) :
    ∃ left, spare ≤ left ∧
      next fuel false (o :: opened) (moreParts parts ++ o.closing :: rest) = next left false opened rest := by
  induction parts generalizing fuel with
  | nil =>
    obtain ⟨fuel, rfl⟩ : ∃ k, fuel = k + 1 := ⟨fuel - 1, by omega⟩
    refine ⟨fuel, by omega, ?_⟩
    rw [moreParts_nil, List.nil_append, next, dropSpace_closing]
    simp
  | cons part parts ih =>
    obtain ⟨fuel, rfl⟩ : ∃ k, fuel = k + 1 := ⟨fuel - 1, by omega⟩
    rw [moreParts_cons, List.length_cons, List.length_append] at enough
    have comma : next (fuel + 1) false (o :: opened) (moreParts (part :: parts) ++ o.closing :: rest)
        = item fuel o opened (part ++ (moreParts parts ++ o.closing :: rest)) := by
      rw [moreParts_cons, List.cons_append, List.append_assoc, next, dropSpace_cons (by decide)]
      simp [comma_ne_closing]
    obtain ⟨left, some, passed⟩ := (h part List.mem_cons_self).passes _ opened fuel
      (3 * (moreParts parts).length + 1 + spare) (endsPart_following o parts rest) (by omega)
    obtain ⟨left', some', ended⟩ := ih (fun p hp => h p (List.mem_cons_of_mem _ hp)) some
    exact ⟨left', some', by rw [comma, passed, ended]⟩

theorem passes_container {o : Open} {bracket : Char} {parts : List (List Char)} {s : List Char}
    (opens : ∀ s, start (bracket :: s) = .ok (some o, s)) (h : ∀ p ∈ parts, Part o p)
    (parted : Parted parts s) : Passes (bracket :: (s ++ [o.closing])) := by
  intro blanks rest opened fuel spare hb ends enough
  simp only [List.length_cons, List.length_append, List.length_nil] at enough
  obtain ⟨fuel, rfl⟩ : ∃ k, fuel = k + 2 := ⟨fuel - 2, by omega⟩
  have bracketed : value (fuel + 2) opened (blanks ++ (bracket :: (s ++ [o.closing]) ++ rest))
      = next (fuel + 1) true (o :: opened) (s ++ o.closing :: rest) := by
    rw [value, start_blanks hb, List.cons_append, opens, List.append_assoc]
    rfl
  rw [bracketed]
  cases parts with
  | nil =>
    refine ⟨fuel, by omega, ?_⟩
    rw [next, dropSpace_append parted, dropSpace_closing]
    simp
  | cons part parts =>
    obtain rfl := parted
    rw [List.length_append] at enough
    have first := h part List.mem_cons_self
    have enough' : 1 < fuel := by omega
    obtain ⟨left, some, passed⟩ := first.passes _ opened fuel
      (3 * (moreParts parts).length + 1 + spare) (endsPart_following o parts rest) (by omega)
    obtain ⟨left', some', ended⟩ := next_following (fun p hp => h p (List.mem_cons_of_mem _ hp)) opened rest some
    refine ⟨left', some', ?_⟩
    rw [← ended, ← passed, List.append_assoc, ← item_dropSpace enough']
    obtain ⟨c, t, begins, notClosing⟩ := first.begins (moreParts parts ++ o.closing :: rest)
    rw [next, begins]
    simp [notClosing]

theorem part_item {i : Item} (spaced : i.Spaced) (starts : Starts i.value) (passes : Passes i.value) :
    Part .array i.text where
  begins rest := by
    obtain ⟨c, t, value, notSpace, notClosing, -, -⟩ := starts
    refine ⟨c, t ++ (i.after ++ rest), ?_, notClosing⟩
    rw [Item.text, value, List.append_assoc, dropSpace_append spaced.1, List.append_assoc,
      List.cons_append, dropSpace_cons notSpace]
  passes rest opened fuel spare ends enough := by
    simp only [Item.text, List.length_append] at enough
    obtain ⟨fuel, rfl⟩ : ∃ k, fuel = k + 1 := ⟨fuel - 1, by omega⟩
    obtain ⟨left, some, passed⟩ := passes i.before (i.after ++ rest) (.array :: opened) fuel (spare + 1)
      spaced.1 (endsPart_append spaced.2 ends) (by omega)
    refine ⟨left, by omega, ?_⟩
    rw [Item.text, List.append_assoc, List.append_assoc]
    simp only [item, head]
    rw [passed, next_blanks (by omega) _ _ spaced.2]

theorem head_member {m : Member} (spaced : m.Spaced) (inside : Literal.Inside m.name) (rest : List Char) :
    head .object (m.text ++ rest) = .ok (m.item.text ++ rest) := by
  simp only [Member.text, List.append_assoc, List.cons_append]
  rw [head, dropSpace_append spaced.1, dropSpace_cons (by decide)]
  show Literal.skip (m.name ++ '"' :: _) >>= colon = _
  rw [Literal.skip_inside inside]
  show colon (m.gap ++ _) = _
  rw [colon_eq_ok_iff, dropSpace_append spaced.2.1, dropSpace_cons (by decide)]

theorem part_member {m : Member} (spaced : m.Spaced) (inside : Literal.Inside m.name)
    (passes : Passes m.item.value) : Part .object m.text where
  begins rest := by
    refine ⟨'"', m.name ++ '"' :: (m.gap ++ ':' :: m.item.text) ++ rest, ?_, by decide⟩
    rw [Member.text, List.append_assoc, dropSpace_append spaced.1, List.cons_append,
      dropSpace_cons (by decide)]
  passes rest opened fuel spare ends enough := by
    have shorter : m.item.value.length + 1 ≤ m.text.length := by
      simp only [Member.text, Item.text, List.length_append, List.length_cons]
      omega
    obtain ⟨fuel, rfl⟩ : ∃ k, fuel = k + 1 := ⟨fuel - 1, by omega⟩
    obtain ⟨hb, hg, before, after⟩ := spaced
    obtain ⟨left, some, passed⟩ := passes m.item.before (m.item.after ++ rest) (.object :: opened) fuel
      (spare + 1) before (endsPart_append after ends) (by omega)
    refine ⟨left, by omega, ?_⟩
    simp only [item, head_member ⟨hb, hg, before, after⟩ inside]
    rw [Item.text, List.append_assoc, List.append_assoc, passed, next_blanks (by omega) _ _ after]

theorem passes_wellFormed {t : List Char} (h : WellFormed t) : Passes t := by
  induction h with
  | null => exact passes_of_start (by simp) fun rest _ => rfl
  | true => exact passes_of_start (by simp) fun rest _ => rfl
  | false => exact passes_of_start (by simp) fun rest _ => rfl
  | numeral unsigned =>
    obtain ⟨c, s, hs, -⟩ := unsigned.begins
    exact passes_of_start (by simp [hs]) fun rest ends => start_numeral unsigned ends
  | negative unsigned => exact passes_of_start (by simp) fun rest ends => start_negative unsigned ends
  | literal inside =>
    refine passes_of_start (by simp) fun rest _ => ?_
    rw [List.cons_append, List.append_assoc]
    exact start_literal inside rest
  | array parted spaced values ih =>
    refine passes_container (o := .array) (fun s => rfl) ?_ parted
    intro p hp
    obtain ⟨i, hi, rfl⟩ := List.mem_map.1 hp
    exact part_item (spaced i hi) (values i hi).starts (ih i hi)
  | object parted spaced names values ih =>
    refine passes_container (o := .object) (fun s => rfl) ?_ parted
    intro p hp
    obtain ⟨m, hm, rfl⟩ := List.mem_map.1 hp
    exact part_member (spaced m hm) (names m hm) (ih m hm)

end Skip

/-! ## The end of a value -/

/-- The text of a value is passed over to its end, if what follows ends it. -/
theorem skip_wellFormed {blanks t rest : List Char} (hb : Blanks blanks) (h : WellFormed t)
    (ends : EndsPart rest) : skip (blanks ++ (t ++ rest)) = .ok rest := by
  unfold skip
  obtain ⟨left, some, passed⟩ := Skip.passes_wellFormed h blanks rest []
    (3 * (blanks ++ (t ++ rest)).length + 3) 1 hb ends (by simp only [List.length_append]; omega)
  obtain ⟨left, rfl⟩ : ∃ k, left = k + 1 := ⟨left - 1, by omega⟩
  rw [passed, Skip.next]

theorem WellFormed.dropSpace {blanks t : List Char} (hb : Blanks blanks) (h : WellFormed t)
    (rest : List Char) : dropSpace (blanks ++ (t ++ rest)) = t ++ rest := by
  obtain ⟨c, s, rfl, notSpace, -⟩ := h.starts
  rw [dropSpace_append hb, List.cons_append, dropSpace_cons notSpace]

/-- A text begins with no more than one value that is ended there. -/
theorem WellFormed.unique {blanks blanks' t t' rest rest' : List Char} (hb : Blanks blanks)
    (hb' : Blanks blanks') (h : WellFormed t) (h' : WellFormed t') (ends : EndsPart rest)
    (ends' : EndsPart rest') (same : blanks ++ (t ++ rest) = blanks' ++ (t' ++ rest')) :
    t = t' ∧ rest = rest' := by
  have stops := skip_wellFormed hb h ends
  rw [same, skip_wellFormed hb' h' ends'] at stops
  obtain rfl : rest' = rest := Except.ok.inj stops
  have begins := h.dropSpace hb rest'
  rw [same, h'.dropSpace hb'] at begins
  exact ⟨(List.append_cancel_right begins).symm, rfl⟩

end Courier.Json
