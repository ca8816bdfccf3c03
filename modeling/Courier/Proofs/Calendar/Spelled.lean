import Courier.Proofs.Calendar.ZonedText
import Courier.Proofs.Text.Steps

set_option autoImplicit false

/-! # The texts that are read as dates

More texts are read than are written. What a text must look like to tell a date and a time of day is told
here without the reader (`Spelled`): six numerals with marks between them, which need not be padded and may
have blanks before them. Each numeral is read by itself, up to the mark after it (`number_of_spelled`,
`year_of_spelled`), and what is read as a number is a numeral of it (`spelled_of_number`, `spelled_of_year`).
So the texts that are read are those that tell a date of the calendar and a time of day (`parse_eq_ok_iff`),
and no text tells two (`Spelled.unique`).
-/

namespace Courier

namespace Instant

theorem InUtc.second_le {t : Instant} {date : Date} {clock : Clock} (h : t.InUtc date clock) :
    clock.second ≤ 60 := by
  have second := h.second
  split at second <;> omega

end Instant

namespace DateText

open Decimal

/-! ## The form -/

/-- The numeral of a number: at least one digit and no more than `most`, and blanks before them. -/
def SpelledNumber (most n : Nat) (s : List Char) : Prop :=
  ∃ (blanks ds : List Char) (width : Nat), s = blanks ++ ds ∧ (∀ c ∈ blanks, isBlank c = true) ∧
    (1 ≤ width ∧ width ≤ most) ∧ Padded width n ds

/-- The numeral of a year: one to four digits, or a sign and at least one digit, and blanks before them. -/
inductive SpelledYear : Int → List Char → Prop where
  | plain {n : Nat} {s : List Char} (numeral : SpelledNumber 4 n s) : SpelledYear n s
  | signed {n width : Nat} {blanks ds : List Char} (negative : Bool) (blank : ∀ c ∈ blanks, isBlank c = true)
      (some : 1 ≤ width) (padded : Padded width n ds) :
      SpelledYear (if negative then -(n : Int) else n) (blanks ++ (if negative then '-' else '+') :: ds)

/-- The text tells a date and a time of day, whether there are such or not. -/
def Spelled (date : Date) (clock : Clock) (s : List Char) : Prop :=
  ∃ year month day hour minute second : List Char,
    s = year ++ '-' :: (month ++ '-' :: (day ++ 'T' :: (hour ++ ':' :: (minute ++ ':' :: (second ++ ['Z'])))))
      ∧ SpelledYear date.year year ∧ SpelledNumber 2 date.month month ∧ SpelledNumber 2 date.day day
      ∧ SpelledNumber 2 clock.hour hour ∧ SpelledNumber 2 clock.minute minute
      ∧ SpelledNumber 2 clock.second second

/-! ## Digits and blanks -/

theorem dropBlanks_append {blanks : List Char} (h : ∀ c ∈ blanks, isBlank c = true) (s : List Char) :
    (blanks ++ s).dropWhile isBlank = s.dropWhile isBlank :=
  List.dropWhile_append_of_pos h

/-- A text is its blanks and what is left when they are dropped. -/
theorem exists_blanks (s : List Char) :
    ∃ blanks, s = blanks ++ s.dropWhile isBlank ∧ ∀ c ∈ blanks, isBlank c = true :=
  ⟨s.takeWhile isBlank, List.takeWhile_append_dropWhile.symm, fun _ => List.mem_takeWhile_imp⟩

/-- No more digits are taken than may be, and all of them if no digit follows. -/
theorem splitDigits_append {most : Nat} {ds rest : List Char} (hds : ∀ c ∈ ds, c.isDigit = true)
    (short : ds.length ≤ most) (ends : NoDigit rest) : splitDigits most (ds ++ rest) = (ds, rest) := by
  have taken : ((ds ++ rest).take most).takeWhile Char.isDigit = ds := by
    have front : (ds ++ rest).take most = ds ++ rest.take (most - ds.length) := by
      rw [List.take_append, List.take_of_length_le short]
    rw [front]
    apply takeWhile_digits hds
    intro c hc
    cases rest with
    | nil => simp at hc
    | cons d rest =>
      cases hm : most - ds.length with
      | zero => simp [hm] at hc
      | succ m => exact ends c (by simpa [hm] using hc)
  unfold splitDigits
  simp only [taken, List.drop_left]

theorem splitDigits_eq {most : Nat} {s ds rest : List Char} (h : splitDigits most s = (ds, rest)) :
    s = ds ++ rest ∧ (∀ c ∈ ds, c.isDigit = true) ∧ ds.length ≤ most := by
  unfold splitDigits at h
  obtain ⟨rfl, left⟩ := Prod.mk.inj h
  have front : (s.take most).takeWhile Char.isDigit <+: s :=
    (List.takeWhile_prefix _).trans (List.take_prefix _ _)
  refine ⟨?_, ?_, ?_⟩
  · rw [← left]
    exact (List.prefix_iff_eq_append.1 front).symm
  · intro c hc
    exact List.mem_takeWhile_imp hc
  · calc ((s.take most).takeWhile Char.isDigit).length
        ≤ (s.take most).length := (List.takeWhile_prefix _).length_le
      _ ≤ most := List.length_take_le _ _

theorem noDigit_dropWhile (s : List Char) : NoDigit (s.dropWhile Char.isDigit) := by
  have first := List.head?_dropWhile_not Char.isDigit s
  intro c hc
  rw [Option.mem_def.1 hc] at first
  exact first

/-- Digits stand for their number if there is one at all. -/
theorem numeral_eq_ok_iff {ds rest rest' : List Char} {n : Nat} :
    numeral ds rest = .ok (n, rest') ↔ 1 ≤ ds.length ∧ value ds = n ∧ rest = rest' := by
  cases ds with
  | nil => cases rest <;> simp [numeral]
  | cons c ds => simp [numeral]

/-! ## Numerals and their digits -/

/-- The digits of a numeral are what comes after its blanks, and no mark after it is taken for one. -/
theorem SpelledNumber.digits {most n : Nat} {t : List Char} (h : SpelledNumber most n t) {rest : List Char}
    (ends : NoDigit rest) :
    ∃ c s ds, (t ++ rest).dropWhile isBlank = c :: s ∧ c.isDigit = true ∧
      splitDigits most (c :: s) = (ds, rest) ∧ numeral ds rest = .ok (n, rest) := by
  obtain ⟨blanks, ds, width, rfl, blank, ⟨some, short⟩, padded⟩ := h
  obtain rfl := padded.length
  obtain ⟨c, cs, rfl⟩ := List.exists_cons_of_length_pos some
  have digit : c.isDigit = true := padded.digits c List.mem_cons_self
  refine ⟨c, cs ++ rest, c :: cs, ?_, digit, ?_, ?_⟩
  · rw [List.append_assoc, dropBlanks_append blank, List.cons_append, dropBlanks_digit digit]
  · exact splitDigits_append padded.digits short ends
  · exact numeral_eq_ok_iff.2 ⟨some, padded.value, rfl⟩

/-- Digits that are taken after blanks make up a numeral with these. -/
theorem spelled_of_digits {most n : Nat} {s ds left rest : List Char}
    (split : splitDigits most (s.dropWhile isBlank) = (ds, left)) (told : numeral ds left = .ok (n, rest)) :
    ∃ t, s = t ++ rest ∧ SpelledNumber most n t := by
  obtain ⟨blanks, hs, blank⟩ := exists_blanks s
  obtain ⟨hs', digits, short⟩ := splitDigits_eq split
  obtain ⟨some, value, rfl⟩ := numeral_eq_ok_iff.1 told
  refine ⟨blanks ++ ds, ?_, blanks, ds, _, rfl, blank, ⟨some, short⟩, digits, rfl, value⟩
  rw [hs', ← List.append_assoc] at hs
  exact hs

/-! ## What is read -/

/-- A number is read from a numeral of it, up to the mark after it, if it lies between the bounds. -/
theorem number_of_spelled {least most n : Nat} {t : List Char} (h : SpelledNumber 2 n t)
    (bounds : least ≤ n ∧ n ≤ most) {rest : List Char} (ends : NoDigit rest) :
    number least most (t ++ rest) = .ok (n, rest) := by
  obtain ⟨c, s, ds, dropped, -, split, told⟩ := h.digits ends
  unfold number
  simp only [dropped, split, told]
  rw [if_pos bounds]

theorem spelled_of_number {least most n : Nat} {s rest : List Char}
    (h : number least most s = .ok (n, rest)) :
    ∃ t, s = t ++ rest ∧ SpelledNumber 2 n t ∧ least ≤ n ∧ n ≤ most := by
  obtain ⟨ds, left, split⟩ : ∃ ds left, splitDigits 2 (s.dropWhile isBlank) = (ds, left) := ⟨_, _, rfl⟩
  unfold number at h
  simp only [split] at h
  cases told : numeral ds left with
  | error fault => simp [told] at h
  | ok read =>
    obtain ⟨m, after⟩ := read
    simp only [told] at h
    split at h
    · next bounds =>
      obtain ⟨rfl, rfl⟩ := Prod.mk.inj (Except.ok.inj h)
      obtain ⟨t, hs, spelled⟩ := spelled_of_digits split told
      exact ⟨t, hs, spelled, bounds⟩
    · cases h

/-- What is read of a year after its sign: digits, however many they are. -/
def signedYear (negative : Bool) (s : List Char) : Except Fault (Int × List Char) :=
  match numeral (s.span Char.isDigit).1 (s.span Char.isDigit).2 with
  | .error fault => .error fault
  | .ok (n, rest) =>
    let y : Int := if negative then -n else n
    if -0x80000000 ≤ y ∧ y < 0x80000000 then .ok (y, rest) else .error .outOfRange

/-- The first character after the blanks tells whether a year has a sign. -/
theorem year_eq (s : List Char) :
    year s = match s.dropWhile isBlank with
      | [] => .error .tooShort
      | c :: tail =>
        if c = '-' then signedYear true tail
        else if c = '+' then signedYear false tail
        else
          match numeral (splitDigits 4 (c :: tail)).1 (splitDigits 4 (c :: tail)).2 with
          | .error fault => .error fault
          | .ok (n, rest) => .ok (n, rest) := rfl

theorem signedYear_eq_ok_iff {negative : Bool} {s rest : List Char} {y : Int} :
    signedYear negative s = .ok (y, rest) ↔
      ∃ (n width : Nat) (ds : List Char), s = ds ++ rest ∧ NoDigit rest ∧ 1 ≤ width ∧ Padded width n ds ∧
        y = (if negative then -(n : Int) else n) ∧ -0x80000000 ≤ y ∧ y < 0x80000000 := by
  unfold signedYear
  constructor
  · intro h
    cases told : numeral (s.span Char.isDigit).1 (s.span Char.isDigit).2 with
    | error fault => rw [told] at h; cases h
    | ok read =>
      obtain ⟨n, left⟩ := read
      rw [told] at h
      simp only at h
      generalize hy : (if negative then -(n : Int) else n) = signed at h
      split at h
      · next range =>
        obtain ⟨rfl, rfl⟩ := Prod.mk.inj (Except.ok.inj h)
        obtain ⟨some, value, hleft⟩ := numeral_eq_ok_iff.1 told
        rw [List.span_eq_takeWhile_dropWhile] at some value hleft
        refine ⟨n, _, s.takeWhile Char.isDigit, ?_, ?_, some, ⟨?_, rfl, value⟩, hy.symm, range⟩
        · rw [← hleft, List.takeWhile_append_dropWhile]
        · rw [← hleft]
          exact noDigit_dropWhile s
        · intro c hc
          exact List.mem_takeWhile_imp hc
      · cases h
  · rintro ⟨n, width, ds, rfl, ends, some, padded, rfl, range⟩
    have told : numeral ds rest = .ok (n, rest) :=
      numeral_eq_ok_iff.2 ⟨padded.length ▸ some, padded.value, rfl⟩
    rw [span_digits padded.digits ends, told]
    simp only
    rw [if_pos range]

theorem year_of_spelled {y : Int} {t : List Char} (h : SpelledYear y t)
    (range : -0x80000000 ≤ y ∧ y < 0x80000000) {rest : List Char} (ends : NoDigit rest) :
    year (t ++ rest) = .ok (y, rest) := by
  rw [year_eq]
  cases h with
  | plain numeral =>
    obtain ⟨c, s, ds, dropped, digit, split, told⟩ := numeral.digits ends
    have notMinus : c ≠ '-' := ne_of_isDigit digit (by decide)
    have notPlus : c ≠ '+' := ne_of_isDigit digit (by decide)
    simp only [dropped, if_neg notMinus, if_neg notPlus, split, told]
  | @signed n width blanks ds negative blank some padded =>
    have read : signedYear negative (ds ++ rest) = .ok (_, rest) :=
      signedYear_eq_ok_iff.2 ⟨n, width, ds, rfl, ends, some, padded, rfl, range⟩
    rw [List.append_assoc, dropBlanks_append blank, List.cons_append]
    cases negative with
    | true =>
      rw [if_pos rfl, List.dropWhile_cons_of_neg (by decide)]
      exact read
    | false =>
      rw [if_neg (by decide), List.dropWhile_cons_of_neg (by decide)]
      exact read

theorem spelled_of_year {y : Int} {s rest : List Char} (h : year s = .ok (y, rest)) :
    ∃ t, s = t ++ rest ∧ SpelledYear y t ∧ -0x80000000 ≤ y ∧ y < 0x80000000 := by
  -- A sign, the digits after it, and the blanks before it.
  have signed : ∀ (negative : Bool) (tail : List Char),
      s.dropWhile isBlank = (if negative then '-' else '+') :: tail →
      signedYear negative tail = .ok (y, rest) →
      ∃ t, s = t ++ rest ∧ SpelledYear y t ∧ -0x80000000 ≤ y ∧ y < 0x80000000 := by
    intro negative tail dropped read
    obtain ⟨blanks, hs, blank⟩ := exists_blanks s
    obtain ⟨n, width, ds, rfl, -, some, padded, rfl, range⟩ := signedYear_eq_ok_iff.1 read
    rw [dropped] at hs
    exact ⟨_, by rw [hs, List.append_assoc, List.cons_append], .signed negative blank some padded, range⟩
  rw [year_eq] at h
  cases dropped : s.dropWhile isBlank with
  | nil => rw [dropped] at h; cases h
  | cons c tail =>
    rw [dropped] at h
    simp only at h
    split at h
    · next minus => exact signed true tail (by rw [dropped, minus]; rfl) h
    split at h
    · next plus => exact signed false tail (by rw [dropped, plus]; rfl) h
    · obtain ⟨ds, left, split⟩ : ∃ ds left, splitDigits 4 (c :: tail) = (ds, left) := ⟨_, _, rfl⟩
      rw [split] at h
      cases told : numeral ds left with
      | error fault => simp [told] at h
      | ok read =>
        obtain ⟨n, after⟩ := read
        simp only [told] at h
        obtain ⟨rfl, rfl⟩ := Prod.mk.inj (Except.ok.inj h)
        rw [← dropped] at split
        obtain ⟨t, hs, spelled⟩ := spelled_of_digits split told
        obtain ⟨_, _, width, -, -, ⟨-, short⟩, padded⟩ := id spelled
        have small : n < 10 ^ 4 := Nat.lt_of_lt_of_le padded.lt (Nat.pow_le_pow_right (by decide) short)
        exact ⟨t, hs, .plain spelled, by omega⟩

theorem mark_eq_ok_iff {c : Char} {s rest : List Char} : mark c s = .ok rest ↔ s = c :: rest := by
  cases s with
  | nil => simp [mark]
  | cons d s =>
    by_cases same : d = c
    · simp [mark, same]
    · simp [mark, same]

/-! ## Instants -/

/-- The end of a text is looked for before date and time of day are. -/
theorem read_eq_ok_iff {s : List Char} {t : Instant} :
    read s = .ok t ↔ ∃ date clock, Spelled date clock s ∧
      (-0x80000000 ≤ date.year ∧ date.year < 0x80000000) ∧ (1 ≤ date.month ∧ date.month ≤ 12) ∧
      (1 ≤ date.day ∧ date.day ≤ 31) ∧ clock.hour ≤ 23 ∧ clock.minute ≤ 59 ∧ clock.second ≤ 60 ∧
      date.day ≤ Date.daysInMonth date.year date.month ∧ Instant.ofParts? date clock = some t := by
  unfold read
  simp only [Except.bind_eq_ok_iff, Prod.exists, mark_eq_ok_iff]
  constructor
  · rintro ⟨y, s₁, hy, s₂, rfl, m, s₃, hm, s₄, rfl, d, s₅, hd, s₆, rfl, hh, s₇, hhour, s₈, rfl, mi, s₉,
      hmin, s₁₀, rfl, se, s₁₁, hsec, s₁₂, rfl, final⟩
    obtain ⟨rfl, inMonth, parts⟩ : s₁₂ = [] ∧ d ≤ Date.daysInMonth y m ∧
        Instant.ofParts? ⟨y, m, d⟩ ⟨hh, mi, se⟩ = some t := by
      split at final
      · cases final
      · next nothing =>
        split at final
        · next inMonth =>
          split at final
          · next t' parts =>
            obtain rfl := Except.ok.inj final
            exact ⟨by simpa using nothing, inMonth, parts⟩
          · cases final
        · cases final
    obtain ⟨ty, rfl, year, range⟩ := spelled_of_year hy
    obtain ⟨tm, rfl, month, monthRange⟩ := spelled_of_number hm
    obtain ⟨td, rfl, day, dayRange⟩ := spelled_of_number hd
    obtain ⟨th, rfl, hour, -, hourRange⟩ := spelled_of_number hhour
    obtain ⟨tmin, rfl, minute, -, minuteRange⟩ := spelled_of_number hmin
    obtain ⟨ts, rfl, second, -, secondRange⟩ := spelled_of_number hsec
    exact ⟨⟨y, m, d⟩, ⟨hh, mi, se⟩, ⟨ty, tm, td, th, tmin, ts, rfl, year, month, day, hour, minute, second⟩,
      range, monthRange, dayRange, hourRange, minuteRange, secondRange, inMonth, parts⟩
  · rintro ⟨⟨y, m, d⟩, ⟨hh, mi, se⟩, ⟨ty, tm, td, th, tmin, ts, rfl, year, month, day, hour, minute, second⟩,
      range, monthRange, dayRange, hourRange, minuteRange, secondRange, inMonth, parts⟩
    have dash : ∀ s, NoDigit ('-' :: s) := noDigit_cons (by decide)
    have colon : ∀ s, NoDigit (':' :: s) := noDigit_cons (by decide)
    exact ⟨y, _, year_of_spelled year range (dash _), _, rfl,
      m, _, number_of_spelled month monthRange (dash _), _, rfl,
      d, _, number_of_spelled day dayRange (noDigit_cons (by decide) _), _, rfl,
      hh, _, number_of_spelled hour ⟨Nat.zero_le _, hourRange⟩ (colon _), _, rfl,
      mi, _, number_of_spelled minute ⟨Nat.zero_le _, minuteRange⟩ (colon _), _, rfl,
      se, _, number_of_spelled second ⟨Nat.zero_le _, secondRange⟩ (noDigit_cons (by decide) _), _, rfl,
      by rw [if_neg (by decide), if_pos inMonth, parts]⟩

/-! ## One date for each text -/

theorem SpelledNumber.unique {most n n' : Nat} {t t' rest rest' : List Char} (h : SpelledNumber most n t)
    (h' : SpelledNumber most n' t') (ends : NoDigit rest) (ends' : NoDigit rest')
    (same : t ++ rest = t' ++ rest') : n = n' ∧ rest = rest' := by
  obtain ⟨c, s, ds, dropped, -, split, told⟩ := h.digits ends
  obtain ⟨c', s', ds', dropped', -, split', told'⟩ := h'.digits ends'
  rw [same, dropped'] at dropped
  rw [← dropped, split'] at split
  obtain ⟨rfl, rfl⟩ := Prod.mk.inj split
  rw [told'] at told
  exact ⟨(Prod.mk.inj (Except.ok.inj told)).1.symm, rfl⟩

/-- After the blanks, a year has a digit or the sign that belongs to it. -/
theorem SpelledYear.unique {y y' : Int} {t t' rest rest' : List Char} (h : SpelledYear y t)
    (h' : SpelledYear y' t') (ends : NoDigit rest) (ends' : NoDigit rest')
    (same : t ++ rest = t' ++ rest') : y = y' ∧ rest = rest' := by
  have sign : ∀ (negative : Bool), ((if negative then '-' else '+') : Char).isDigit = false ∧
      isBlank (if negative then '-' else '+') = false := by
    intro negative
    cases negative <;> decide
  have dropSign : ∀ {blanks : List Char} (negative : Bool), (∀ c ∈ blanks, isBlank c = true) →
      ∀ s, ((blanks ++ (if negative then '-' else '+') :: s)).dropWhile isBlank
        = (if negative then '-' else '+') :: s := by
    intro blanks negative blank s
    rw [dropBlanks_append blank, List.dropWhile_cons_of_neg (by simp [(sign negative).2])]
  have dropped : (t ++ rest).dropWhile isBlank = (t' ++ rest').dropWhile isBlank := by rw [same]
  cases h with
  | plain numeral =>
    cases h' with
    | plain numeral' =>
      obtain ⟨rfl, rest⟩ := numeral.unique numeral' ends ends' same
      exact ⟨rfl, rest⟩
    | signed negative' blank' =>
      obtain ⟨c, s, ds, first, digit, -, -⟩ := numeral.digits ends
      rw [first, List.append_assoc, List.cons_append, dropSign negative' blank'] at dropped
      rw [(List.cons.inj dropped).1, (sign negative').1] at digit
      cases digit
  | @signed n width blanks ds negative blank some padded =>
    cases h' with
    | plain numeral' =>
      obtain ⟨c, s, ds, first, digit, -, -⟩ := numeral'.digits ends'
      rw [first, List.append_assoc, List.cons_append, dropSign negative blank] at dropped
      rw [← (List.cons.inj dropped).1, (sign negative).1] at digit
      cases digit
    | @signed n' width' blanks' ds' negative' blank' some' padded' =>
      rw [List.append_assoc, List.cons_append, dropSign negative blank, List.append_assoc,
        List.cons_append, dropSign negative' blank'] at dropped
      obtain ⟨signs, digits⟩ := List.cons.inj dropped
      have span := span_digits padded.digits ends
      rw [digits, span_digits padded'.digits ends'] at span
      obtain ⟨rfl, rfl⟩ := Prod.mk.inj span
      obtain rfl : n = n' := padded.value.symm.trans padded'.value
      have : negative = negative' := by
        cases negative <;> cases negative' <;> simp_all
      rw [this]
      exact ⟨rfl, rfl⟩

theorem Spelled.unique {date date' : Date} {clock clock' : Clock} {s : List Char}
    (h : Spelled date clock s) (h' : Spelled date' clock' s) : date = date' ∧ clock = clock' := by
  obtain ⟨y, m, d⟩ := date
  obtain ⟨hh, mi, se⟩ := clock
  obtain ⟨ty, tm, td, th, tmin, ts, rfl, year, month, day, hour, minute, second⟩ := h
  obtain ⟨ty', tm', td', th', tmin', ts', same, year', month', day', hour', minute', second'⟩ := h'
  have mark : ∀ {c : Char}, c.isDigit = false → ∀ s, NoDigit (c :: s) := noDigit_cons
  obtain ⟨rfl, same⟩ := year.unique year' (mark (by decide) _) (mark (by decide) _) same
  obtain ⟨rfl, same⟩ := month.unique month' (mark (by decide) _) (mark (by decide) _) (List.cons.inj same).2
  obtain ⟨rfl, same⟩ := day.unique day' (mark (by decide) _) (mark (by decide) _) (List.cons.inj same).2
  obtain ⟨rfl, same⟩ := hour.unique hour' (mark (by decide) _) (mark (by decide) _) (List.cons.inj same).2
  obtain ⟨rfl, same⟩ :=
    minute.unique minute' (mark (by decide) _) (mark (by decide) _) (List.cons.inj same).2
  obtain ⟨rfl, -⟩ := second.unique second' (mark (by decide) _) (mark (by decide) _) (List.cons.inj same).2
  exact ⟨rfl, rfl⟩

/-! ## What is read -/

/-- A text is read as the start of a second if it tells date and time of day of that second. -/
theorem parse_eq_ok_iff {text : String} {t : Instant} :
    parse text = .ok t ↔ ∃ date clock, Spelled date clock text.toList ∧ t.InUtc date clock ∧
      t.nano = if clock.second = 60 then nanosPerSecond else 0 := by
  unfold parse
  rw [read_eq_ok_iff]
  constructor
  · rintro ⟨date, clock, spelled, -, month, day, hour, minute, second, inMonth, parts⟩
    have valid : date.Valid := ⟨month.1, month.2, day.1, inMonth⟩
    obtain ⟨told, nano⟩ := (Instant.ofParts?_eq_some_iff valid hour minute second).1 parts
    exact ⟨date, clock, spelled, told, nano⟩
  · rintro ⟨date, clock, spelled, told, nano⟩
    obtain ⟨month, month', day, inMonth⟩ := told.valid
    have second := told.second_le
    have days : date.day ≤ 31 := Nat.le_trans inMonth (Date.daysInMonth_bounds _ _).2
    have years := told.years
    exact ⟨date, clock, spelled, ⟨by omega, by omega⟩, ⟨month, month'⟩, ⟨day, days⟩, told.hour, told.minute,
      second, inMonth,
      (Instant.ofParts?_eq_some_iff told.valid told.hour told.minute second).2 ⟨told, nano⟩⟩

/-- The texts that are read are those that spell a date of the calendar, of the years there are instants in,
and a time of day. What is read is then the start of the second that date and time of day tell. -/
theorem reads_spelled (text : String) :
    ((∃ t, parse text = .ok t) ↔
      ∃ date clock, Spelled date clock text.toList ∧ date.Valid ∧
        (-262143 ≤ date.year ∧ date.year ≤ 262142) ∧
        clock.hour ≤ 23 ∧ clock.minute ≤ 59 ∧ clock.second ≤ 60) ∧
    ∀ (date : Date) (clock : Clock), Spelled date clock text.toList → ∀ t : Instant,
      parse text = .ok t ↔ t.InUtc date clock ∧ t.nano = if clock.second = 60 then nanosPerSecond else 0 := by
  constructor
  · constructor
    · rintro ⟨t, read⟩
      obtain ⟨date, clock, spelled, told, -⟩ := parse_eq_ok_iff.1 read
      exact ⟨date, clock, spelled, told.valid, told.years, told.hour, told.minute, told.second_le⟩
    · rintro ⟨date, clock, spelled, valid, years, hour, minute, second⟩
      obtain ⟨t, told, nano⟩ := Instant.exists_inUtc valid years hour minute second
      exact ⟨t, parse_eq_ok_iff.2 ⟨date, clock, spelled, told, nano⟩⟩
  · intro date clock spelled t
    constructor
    · intro read
      obtain ⟨date', clock', spelled', told, nano⟩ := parse_eq_ok_iff.1 read
      obtain ⟨rfl, rfl⟩ := spelled.unique spelled'
      exact ⟨told, nano⟩
    · rintro ⟨told, nano⟩
      exact parse_eq_ok_iff.2 ⟨date, clock, spelled, told, nano⟩

/-- A text with blanks, a sign and numbers that are not padded. Its second is a leap second, which is told by
the part of the second before it. -/
theorem reads_spelled_leap_second :
    Spelled ⟨2011, 6, 5⟩ ⟨1, 2, 60⟩ " +2011-6- 5T1:2:60Z".toList ∧
      ∃ t, parse " +2011-6- 5T1:2:60Z" = .ok t ∧ t.InUtc ⟨2011, 6, 5⟩ ⟨1, 2, 60⟩ ∧
        t.nano = nanosPerSecond := by
  have padded (n : Nat) : Padded (digits n).length n (digits n) :=
    ⟨fun _ => isDigit_of_mem_digits, rfl, value_digits n⟩
  have blank : ∀ c ∈ [' '], isBlank c = true := List.forall_mem_singleton.2 rfl
  have spelled : Spelled ⟨2011, 6, 5⟩ ⟨1, 2, 60⟩ " +2011-6- 5T1:2:60Z".toList := by
    refine ⟨[' '] ++ '+' :: digits 2011, digits 6, [' '] ++ digits 5, digits 1, digits 2,
      digits 60, by decide +kernel, ?_, ?_, ?_, ?_, ?_, ?_⟩
    · exact .signed false blank (by decide +kernel) (padded 2011)
    · exact ⟨[], _, _, rfl, by simp, by decide +kernel, padded 6⟩
    · exact ⟨[' '], _, _, rfl, blank, by decide +kernel, padded 5⟩
    · exact ⟨[], _, _, rfl, by simp, by decide +kernel, padded 1⟩
    · exact ⟨[], _, _, rfl, by simp, by decide +kernel, padded 2⟩
    · exact ⟨[], _, _, rfl, by simp, by decide +kernel, padded 60⟩
  have valid : (⟨2011, 6, 5⟩ : Date).Valid := by decide +kernel
  obtain ⟨t, read⟩ := (reads_spelled _).1.2 ⟨_, _, spelled, valid, by decide +kernel, by decide +kernel⟩
  obtain ⟨told, nano⟩ := ((reads_spelled _).2 _ _ spelled t).1 read
  exact ⟨spelled, t, read, told, nano⟩

end DateText

end Courier
