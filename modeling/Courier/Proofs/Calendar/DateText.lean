import Courier.Calendar.DateText
import Courier.Proofs.Calendar.DayNumber
import Courier.Proofs.Text.Decimal
import Mathlib.Data.List.TakeWhile

set_option autoImplicit false

/-! # Reading a date that has been written

Every instant reads back from its text as the start of its second (`parse_format`). Each of the six
numbers is read back by itself, up to the mark that was written after it: the year by `year_yearText`, the
others by `number_twoDigits`. The range checks of the reader are met because the date is one of the
calendar.
-/

namespace Courier.DateText

open Decimal

/-! ## Numbers of two digits -/

theorem isDigit_digitChar {n : Nat} (h : n < 10) : (Nat.digitChar n).isDigit = true := by
  rw [Nat.isDigit_digitChar, decide_eq_true h]

/-- A digit is no blank, so nothing is passed over before it. -/
theorem not_isBlank_of_isDigit {c : Char} (h : c.isDigit = true) : isBlank c = false := by
  have bounds := isDigit_bounds h
  unfold isBlank
  simp only [Bool.or_eq_false_iff, Bool.and_eq_false_iff, decide_eq_false_iff_not, beq_eq_false_iff_ne]
  omega

theorem dropBlanks_digit {c : Char} (h : c.isDigit = true) (s : List Char) :
    (c :: s).dropWhile isBlank = c :: s := by
  rw [List.dropWhile_cons_of_neg (by simp [not_isBlank_of_isDigit h])]

theorem value_twoDigits {n : Nat} (h : n < 100) : value (twoDigits n) = n := by
  have high : digitValue (Nat.digitChar (n / 10)) = n / 10 :=
    Nat.toNat_digitChar_sub_48_of_lt_ten (by omega)
  have low : digitValue (Nat.digitChar (n % 10)) = n % 10 :=
    Nat.toNat_digitChar_sub_48_of_lt_ten (by omega)
  show (0 * 10 + digitValue _) * 10 + digitValue _ = n
  rw [high, low]
  omega

theorem number_twoDigits {least most n : Nat} (hn : n < 100) (hleast : least ≤ n) (hmost : n ≤ most)
    (rest : List Char) : number least most (twoDigits n ++ rest) = .ok (n, rest) := by
  have high : (Nat.digitChar (n / 10)).isDigit = true := isDigit_digitChar (by omega)
  have low : (Nat.digitChar (n % 10)).isDigit = true := isDigit_digitChar (by omega)
  have split : splitDigits 2 ((twoDigits n ++ rest).dropWhile isBlank) = (twoDigits n, rest) := by
    show splitDigits 2 ((Nat.digitChar (n / 10) :: Nat.digitChar (n % 10) :: rest).dropWhile isBlank) = _
    rw [dropBlanks_digit high]
    simp [splitDigits, twoDigits, high, low]
  have told : numeral (twoDigits n) rest = .ok (n, rest) := by
    show Except.ok (value (twoDigits n), rest) = _
    rw [value_twoDigits hn]
  unfold number
  simp only [split, told]
  rw [if_pos ⟨hleast, hmost⟩]

/-! ## Years -/

/-- Digits of a number with zeros before them, up to four. -/
theorem value_fourDigits (n : Nat) : value (fourDigits n) = n := by
  unfold fourDigits
  rw [value_zeros_append, value_digits]

theorem isDigit_of_mem_fourDigits {c : Char} {n : Nat} (h : c ∈ fourDigits n) : c.isDigit = true := by
  unfold fourDigits at h
  rcases List.mem_append.1 h with zero | digit
  · obtain ⟨-, rfl⟩ := List.mem_replicate.1 zero
    rfl
  · exact isDigit_of_mem_digits digit

theorem fourDigits_ne_nil (n : Nat) : fourDigits n ≠ [] := by
  unfold fourDigits
  simp [digits_ne_nil]

theorem length_fourDigits {n : Nat} (h : n ≤ 9999) : (fourDigits n).length = 4 := by
  have := length_digits_le h
  unfold fourDigits
  simp only [List.length_append, List.length_replicate]
  omega

theorem numeral_fourDigits (n : Nat) (rest : List Char) :
    numeral (fourDigits n) rest = .ok (n, rest) := by
  have told := value_fourDigits n
  obtain ⟨c, cs, hcs⟩ := List.exists_cons_of_ne_nil (fourDigits_ne_nil n)
  rw [hcs] at told ⊢
  show Except.ok (value (c :: cs), rest) = _
  rw [told]

/-- A year with a sign is read back, up to the mark after it. -/
theorem year_signed (negative : Bool) {n : Nat} {y : Int} (hy : y = if negative then -(n : Int) else n)
    (range : -0x80000000 ≤ y ∧ y < 0x80000000) (rest : List Char) :
    year ((if negative then '-' else '+') :: (fourDigits n ++ '-' :: rest)) = .ok (y, '-' :: rest) := by
  -- The digits end at the mark after the year, however many they are.
  have split : (fourDigits n ++ '-' :: rest).span Char.isDigit = (fourDigits n, '-' :: rest) :=
    span_digits (fun _ => isDigit_of_mem_fourDigits) (noDigit_cons (by decide) rest)
  unfold year
  cases negative with
  | true =>
    have hy : y = -(n : Int) := hy
    rw [if_pos rfl, List.dropWhile_cons_of_neg (by decide)]
    simp only [if_true, split, numeral_fourDigits]
    rw [if_pos (by omega), hy]
  | false =>
    have hy : y = (n : Int) := hy
    rw [if_neg (by decide), List.dropWhile_cons_of_neg (by decide)]
    simp only [if_true, if_neg (show ('+' : Char) ≠ '-' by decide), split, numeral_fourDigits,
      Bool.false_eq_true, if_false]
    rw [if_pos (by omega), hy]

theorem year_unsigned {n : Nat} (h : n ≤ 9999) (rest : List Char) :
    year (fourDigits n ++ rest) = .ok ((n : Int), rest) := by
  obtain ⟨c, cs, hcs⟩ := List.exists_cons_of_ne_nil (fourDigits_ne_nil n)
  have digit : c.isDigit = true := isDigit_of_mem_fourDigits (n := n) (by simp [hcs])
  have notMinus : c ≠ '-' := ne_of_isDigit digit (by decide)
  have notPlus : c ≠ '+' := ne_of_isDigit digit (by decide)
  have length := length_fourDigits h
  have taken : splitDigits 4 (fourDigits n ++ rest) = (fourDigits n, rest) := by
    have all : (fourDigits n).takeWhile Char.isDigit = fourDigits n :=
      List.takeWhile_eq_self_iff.2 fun _ => isDigit_of_mem_fourDigits
    unfold splitDigits
    simp only [List.take_append_of_le_length (Nat.le_of_eq length.symm),
      List.take_of_length_le (Nat.le_of_eq length), all, List.drop_left]
  unfold year
  rw [hcs] at taken
  rw [hcs, List.cons_append, dropBlanks_digit digit]
  simp only [if_neg notMinus, if_neg notPlus]
  rw [List.cons_append] at taken
  simp only [taken, ← hcs, numeral_fourDigits]

theorem year_yearText {y : Int} (range : -0x80000000 ≤ y ∧ y < 0x80000000) (rest : List Char) :
    year (yearText y ++ '-' :: rest) = .ok (y, '-' :: rest) := by
  unfold yearText
  -- A year of more or fewer digits than four has a sign, and the mark after it ends it.
  by_cases plain : 0 ≤ y ∧ y ≤ 9999
  · rw [if_pos plain, year_unsigned (by omega)]
    congr 2
    omega
  · rw [if_neg plain]
    by_cases negative : y < 0
    · rw [if_pos negative, List.cons_append]
      exact year_signed true (by rw [if_pos rfl]; omega) range rest
    · rw [if_neg negative, List.cons_append]
      exact year_signed false (by rw [if_neg (by decide)]; omega) range rest

/-! ## Instants -/

theorem mark_self (c : Char) (rest : List Char) : mark c (c :: rest) = .ok rest := by
  simp [mark]

/-- The characters of the text of an instant are read to the start of its second. -/
theorem read_chars (t : Instant) : read (chars t) = .ok t.wholeSecond := by
  obtain ⟨hmonth, hmonth', hday, hday'⟩ := t.date_valid
  obtain ⟨hhour, hminute, hsecond⟩ := t.clock_bounds
  have hdays : t.date.day ≤ 31 := Nat.le_trans hday' (Date.daysInMonth_bounds _ _).2
  -- The six numbers are read one after the other, each up to the mark after it.
  unfold read chars
  simp only [year_yearText t.date_year_bounds, mark_self, bind, Except.bind,
    number_twoDigits (show t.date.month < 100 by omega) hmonth hmonth',
    number_twoDigits (show t.date.day < 100 by omega) hday hdays,
    number_twoDigits (show t.clock.hour < 100 by omega) (Nat.zero_le _) hhour,
    number_twoDigits (show t.clock.minute < 100 by omega) (Nat.zero_le _) hminute,
    number_twoDigits (show t.clock.second < 100 by omega) (Nat.zero_le _) hsecond]
  rw [if_neg (by simp), if_pos hday', t.ofParts?_parts]

theorem parse_format (t : Instant) : parse (format t) = .ok t.wholeSecond := by
  unfold parse format
  rw [String.toList_ofList, read_chars]

end Courier.DateText
