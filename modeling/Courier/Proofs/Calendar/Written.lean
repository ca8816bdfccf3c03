import Courier.Proofs.Calendar.DateText
import Courier.Proofs.Calendar.Succession
import Courier.Proofs.Http.Head

set_option autoImplicit false

/-! # The form of a date text

What a text must look like to be that of a date and a time of day is told without a writer: which numerals
and marks follow each other, and how wide each numeral is (`Written`). There is one such text for each date
and time of day (`Written.unique`), and it is the one that is written for an instant (`written_iff`).
-/

namespace Courier.DateText

open Decimal

/-! ## The form -/

/-- The numeral of a year. From 0 to 9999 it has four digits and no sign. Any other year has a sign and four
digits, or more if they are needed: then the first one is no zero. -/
inductive WrittenYear : Int → List Char → Prop where
  | plain {y : Int} {ds : List Char} (near : 0 ≤ y ∧ y ≤ 9999) (padded : Padded 4 y.natAbs ds) :
    WrittenYear y ds
  | signed {y : Int} {width : Nat} {ds : List Char} (far : y < 0 ∨ 9999 < y) (wide : 4 ≤ width)
    (padded : Padded width y.natAbs ds) (noZero : 4 < width → ds.head? ≠ some '0') :
    WrittenYear y ((if y < 0 then '-' else '+') :: ds)

/-- The text tells a date and a time of day: all numbers but the year have two digits. -/
def Written (date : Date) (clock : Clock) (s : List Char) : Prop :=
  ∃ year month day hour minute second : List Char,
    s = year ++ '-' :: (month ++ '-' :: (day ++ 'T' :: (hour ++ ':' :: (minute ++ ':' :: (second ++ ['Z'])))))
      ∧ WrittenYear date.year year ∧ Padded 2 date.month month ∧ Padded 2 date.day day
      ∧ Padded 2 clock.hour hour ∧ Padded 2 clock.minute minute ∧ Padded 2 clock.second second

/-! ## One text for each date -/

/-- Two numerals of one number have one width, if none has more than four digits without need. -/
theorem width_unique {width width' n : Nat} {ds es : List Char} (wide' : 4 ≤ width') (h : Padded width n ds)
    (h' : Padded width' n es) (noZero' : 4 < width' → es.head? ≠ some '0') (wide : 4 ≤ width) :
    width' ≤ width := by
  by_contra less
  -- The wider numeral would have five digits at least, and so tell a number that the other cannot tell.
  obtain ⟨more, rfl⟩ : ∃ more, width' = width + more + 1 := ⟨width' - width - 1, by omega⟩
  have low := h'.le_of_head (noZero' (by omega))
  have high := h.lt
  have := Nat.pow_le_pow_right (show 0 < 10 by decide) (Nat.le_add_right width more)
  omega

theorem WrittenYear.unique {y : Int} {s s' : List Char} (h : WrittenYear y s) (h' : WrittenYear y s') :
    s = s' := by
  cases h with
  | plain near padded =>
    cases h' with
    | plain _ padded' => exact padded.unique padded'
    | signed far => omega
  | @signed width _ far wide padded noZero =>
    cases h' with
    | plain near => omega
    | @signed width' _ _ wide' padded' noZero' =>
      obtain rfl : width = width' :=
        Nat.le_antisymm (width_unique wide padded' padded noZero wide')
          (width_unique wide' padded padded' noZero' wide)
      rw [padded.unique padded']

theorem Written.unique {date : Date} {clock : Clock} {s s' : List Char} (h : Written date clock s)
    (h' : Written date clock s') : s = s' := by
  obtain ⟨year, month, day, hour, minute, second, rfl, hy, hm, hd, hh, hmin, hs⟩ := h
  obtain ⟨year', month', day', hour', minute', second', rfl, hy', hm', hd', hh', hmin', hs'⟩ := h'
  rw [hy.unique hy', hm.unique hm', hd.unique hd', hh.unique hh', hmin.unique hmin', hs.unique hs']

/-! ## What is written -/

theorem padded_twoDigits {n : Nat} (h : n < 100) : Padded 2 n (twoDigits n) where
  digits := by
    intro c hc
    simp only [twoDigits, List.mem_cons, List.not_mem_nil, or_false] at hc
    rcases hc with rfl | rfl
    · exact isDigit_digitChar (by omega)
    · exact isDigit_digitChar (by omega)
  length := rfl
  value := value_twoDigits h

/-- A number is written with its own digits if there are four or more. -/
theorem fourDigits_of_ge {n : Nat} (h : 9999 < n) : fourDigits n = digits n ∧ 4 < (digits n).length := by
  have long : 4 < (digits n).length := by
    by_contra short
    have := (Nat.length_toDigits_le_iff (show 1 < 10 by decide) (show 0 < 4 by decide)).1
      (Nat.le_of_not_lt short)
    omega
  unfold fourDigits
  simp only [Nat.sub_eq_zero_of_le (Nat.le_of_lt long), List.replicate_zero, List.nil_append, long,
    and_self]

theorem padded_fourDigits (n : Nat) : Padded (fourDigits n).length n (fourDigits n) where
  digits := fun _ => isDigit_of_mem_fourDigits
  length := rfl
  value := value_fourDigits n

theorem writtenYear_yearText (y : Int) : WrittenYear y (yearText y) := by
  unfold yearText
  by_cases near : 0 ≤ y ∧ y ≤ 9999
  · rw [if_pos near, show y.toNat = y.natAbs by omega]
    have padded := padded_fourDigits y.natAbs
    rw [length_fourDigits (by omega)] at padded
    exact .plain near padded
  · rw [if_neg near]
    refine .signed (by omega) ?_ (padded_fourDigits _) ?_
    · -- Zeros make up four digits if the number has fewer.
      by_cases small : y.natAbs ≤ 9999
      · exact Nat.le_of_eq (length_fourDigits small).symm
      · obtain ⟨own, long⟩ := fourDigits_of_ge (Nat.not_le.1 small)
        rw [own]
        exact Nat.le_of_lt long
    · intro long
      by_cases small : y.natAbs ≤ 9999
      · rw [length_fourDigits small] at long
        exact absurd long (by decide)
      · rw [(fourDigits_of_ge (Nat.not_le.1 small)).1]
        exact digits_head_ne_zero (by omega)

theorem written_chars (t : Instant) : Written t.date t.clock (chars t) := by
  obtain ⟨-, hmonth, -, hday⟩ := t.date_valid
  obtain ⟨hhour, hminute, hsecond⟩ := t.clock_bounds
  have hdays : t.date.day ≤ 31 := Nat.le_trans hday (Date.daysInMonth_bounds _ _).2
  exact ⟨_, _, _, _, _, _, rfl, writtenYear_yearText _, padded_twoDigits (by omega),
    padded_twoDigits (by omega), padded_twoDigits (by omega), padded_twoDigits (by omega),
    padded_twoDigits (by omega)⟩

/-- The text of an instant is the one that has the form. -/
theorem written_iff {t : Instant} {s : String} : Written t.date t.clock s.toList ↔ s = format t := by
  unfold format
  rw [← String.toList_inj, String.toList_ofList]
  constructor
  · exact fun written => written.unique (written_chars t)
  · rintro same
    rw [same]
    exact written_chars t

/-! ## Bytes -/

/-- A character of the form is a digit, or one of the marks and signs around the digits. -/
theorem Written.mem {date : Date} {clock : Clock} {s : List Char} (h : Written date clock s) :
    ∀ c ∈ s, c.isDigit = true ∨ c ∈ ['-', '+', ':', 'T', 'Z'] := by
  obtain ⟨year, month, day, hour, minute, second, rfl, hyear, hmonth, hday, hhour, hminute, hsecond⟩ := h
  have inYear : ∀ c ∈ year, c.isDigit = true ∨ c ∈ ['-', '+', ':', 'T', 'Z'] := by
    cases hyear with
    | plain _ padded => exact fun c hc => .inl (padded.digits c hc)
    | signed _ _ padded _ =>
      intro c hc
      rcases List.mem_cons.1 hc with rfl | hc
      · right
        split <;> decide
      · exact .inl (padded.digits c hc)
  intro c hc
  simp only [List.mem_append, List.mem_cons, List.not_mem_nil, or_false] at hc
  rcases hc with hc | rfl | hc | rfl | hc | rfl | hc | rfl | hc | rfl | hc | rfl
  · exact inYear c hc
  · exact .inr (by decide)
  · exact .inl (hmonth.digits c hc)
  · exact .inr (by decide)
  · exact .inl (hday.digits c hc)
  · exact .inr (by decide)
  · exact .inl (hhour.digits c hc)
  · exact .inr (by decide)
  · exact .inl (hminute.digits c hc)
  · exact .inr (by decide)
  · exact .inl (hsecond.digits c hc)
  · exact .inr (by decide)

theorem Written.ascii {date : Date} {clock : Clock} {s : List Char} (h : Written date clock s) :
    ∀ c ∈ s, c.toNat < 0x80 := by
  intro c hc
  rcases h.mem c hc with digit | mark
  · have := isDigit_bounds digit
    omega
  · have marks : ['-', '+', ':', 'T', 'Z'].all (fun c => c.toNat < 0x80) = true := by decide
    exact of_decide_eq_true (List.all_eq_true.1 marks c mark)

/-- Up to the year 9999 the text takes twenty bytes. -/
theorem Written.length_encode {date : Date} {clock : Clock} {s : List Char} (h : Written date clock s)
    (near : 0 ≤ date.year ∧ date.year ≤ 9999) : (Utf8.encode s).length = 20 := by
  rw [Utf8.encode_ascii h.ascii, List.length_map]
  obtain ⟨year, month, day, hour, minute, second, rfl, hyear, hmonth, hday, hhour, hminute, hsecond⟩ := h
  have four : year.length = 4 := by
    cases hyear with
    | plain _ padded => exact padded.length
    | signed far => omega
  simp only [List.length_append, List.length_cons, List.length_nil, four, hmonth.length, hday.length,
    hhour.length, hminute.length, hsecond.length]

end Courier.DateText
