import Courier.Json.Numeral
import Courier.Proofs.Json.Container
import Courier.Proofs.Json.Grammar
import Courier.Proofs.Text.Decimal

set_option autoImplicit false

/-! # Reading an integer that has been written

The digits of an integer of 64 bits, signed or not, are read back to it (`read_digits`), if nothing follows
that could belong to a numeral. None of the digits is dropped on the way (`absorb_all`), so no double is made
of them.
-/

namespace Courier.Json.Numeral

open Decimal

/-- What ends a part of a container belongs to no numeral. -/
theorem endsPart_head {rest : List Char} (h : EndsPart rest) {c : Char} (hc : c ∈ rest.head?) :
    c.isDigit = false ∧ c ≠ '.' ∧ c ≠ 'e' ∧ c ≠ 'E' := by
  rcases h c hc with space | rfl | rfl | rfl
  · simp only [isSpace, Bool.or_eq_true, beq_iff_eq] at space
    rcases space with ((rfl | rfl) | rfl) | rfl <;> decide
  all_goals decide

theorem noDigit_of_endsPart {rest : List Char} (h : EndsPart rest) : NoDigit rest :=
  fun _ hc => (endsPart_head h hc).1

/-! ## The parts of a numeral -/

theorem le_foldl_digits (ds : List Char) (n : Nat) :
    n ≤ ds.foldl (fun n c => n * 10 + digitValue c) n := by
  induction ds generalizing n with
  | nil => exact Nat.le_refl n
  | cons c ds ih =>
    calc n ≤ n * 10 + digitValue c := by omega
      _ ≤ _ := ih _

theorem absorb_all {ds : List Char} {n : Nat}
    (h : ds.foldl (fun n c => n * 10 + digitValue c) n < 0x10000000000000000) :
    absorb n ds = (ds.foldl (fun n c => n * 10 + digitValue c) n, []) := by
  induction ds generalizing n with
  | nil => rfl
  | cons c ds ih =>
    -- What comes of the digits only grows, so none of the steps leaves 64 bits.
    have first : n * 10 + digitValue c < 0x10000000000000000 := Nat.lt_of_le_of_lt (le_foldl_digits ds _) h
    rw [absorb]
    simp only [if_pos first]
    exact ih h

theorem splitDigits_append {ds rest : List Char} (h : ∀ c ∈ ds, c.isDigit = true) (ends : NoDigit rest) :
    splitDigits (ds ++ rest) = (ds, rest) :=
  span_digits h ends

theorem readWhole_append {whole rest : List Char} (h : Whole whole) (ends : NoDigit rest) :
    readWhole (whole ++ rest) = .ok (whole, rest) := by
  cases h with
  | zero =>
    -- A zero stands alone: a digit after it would be a fault.
    cases rest with
    | nil => rfl
    | cons d rest =>
      have other : d.isDigit = false := ends d (by simp)
      simp [readWhole, other]
  | digits digit notZero more =>
    rw [List.cons_append]
    simp only [readWhole, if_neg notZero, if_pos digit, splitDigits_append more ends]

/-- The digits of a number are an integer part: only zero begins with a zero, and nothing follows that. -/
theorem whole_digits (n : Nat) : Whole (digits n) := by
  by_cases zero : n = 0
  · subst zero
    exact .zero
  · obtain ⟨c, ds, hds, digit, others⟩ := digits_eq_cons n
    have notZero : c ≠ '0' := by
      rintro rfl
      exact digits_head_ne_zero (n := n) (by omega) (by simp [hds])
    rw [hds]
    exact .digits digit notZero others

theorem readFraction_none {rest : List Char} (ends : EndsPart rest) :
    readFraction rest = .ok ([], rest) := by
  cases rest with
  | nil => rfl
  | cons c rest =>
    obtain ⟨-, notPoint, -, -⟩ := endsPart_head ends (c := c) (by simp)
    rw [readFraction, if_neg notPoint]

theorem readExponent_none (isZero : Bool) {rest : List Char} (ends : EndsPart rest) :
    readExponent isZero rest = .ok (none, rest) := by
  cases rest with
  | nil => rfl
  | cons c rest =>
    obtain ⟨-, -, notSmall, notLarge⟩ := endsPart_head ends (c := c) (by simp)
    rw [readExponent, if_neg (by simp [notSmall, notLarge])]

/-! ## Integers -/

/-- An integer part that fits 64 bits, and is not a zero with a minus sign, is the integer. -/
theorem assemble_digits {negative : Bool} {n : Nat} (bound : n < 0x10000000000000000)
    (inRange : Number.InRange (if negative then -(n : Int) else n)) (nonzero : ¬(negative = true ∧ n = 0)) :
    assemble negative (digits n) [] none = some (.integer _ inRange) := by
  have taken : absorb 0 (digits n) = (n, []) := by
    have told : (digits n).foldl (fun n c => n * 10 + digitValue c) 0 = n := value_digits n
    rw [absorb_all (by rw [told]; exact bound), told]
  -- No digit is left over and no exponent is there, so the numeral is an integer.
  unfold assemble
  simp only [taken]
  rw [dif_pos ⟨by simp, inRange, nonzero⟩]

/-- The digits of an integer of 64 bits are read back to it, from after its sign. -/
theorem read_digits {negative : Bool} {n : Nat} (bound : n < 0x10000000000000000)
    (inRange : Number.InRange (if negative then -(n : Int) else n)) (nonzero : ¬(negative = true ∧ n = 0))
    {rest : List Char} (ends : EndsPart rest) :
    read negative (digits n ++ rest) = .ok (.integer _ inRange, rest) := by
  unfold read
  simp only [readWhole_append (whole_digits n) (noDigit_of_endsPart ends), readFraction_none ends,
    readExponent_none _ ends, assemble_digits bound inRange nonzero, bind, Except.bind]

end Courier.Json.Numeral
