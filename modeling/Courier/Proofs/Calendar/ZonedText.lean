import Courier.Calendar.ZonedText
import Courier.Json.Dates
import Courier.Payload
import Courier.Proofs.Calendar.Written
import Courier.Proofs.Json.Writer

set_option autoImplicit false

/-! # What the text of an instant tells

The text of an instant tells the date and the time of day in universal time of the second that clocks show
(`Instant.InUtc`), whatever place the instant is held for, and reads back as the start of that second. It is the
second of the instant itself unless the part of it goes beyond the second within a minute, where the text and
what is read back are those of the second that follows (`Instant.wholeSecond_eq_cut_iff`). Both are for every
instant there is, and there is one for each day of the years from -262143 to 262142, each second of the day and
each part below `2 * 10^9` (`Instant.exists_second_iff`).
-/

namespace Courier

namespace Instant

/-! ## Date and time of day -/

/-- The date and the time of day of an instant, in universal time. The date is the day of the calendar with
the count of days that the instant has; the time of day tells the seconds since the day began. A leap second
is the 60th of its minute, and is counted with the 59th. -/
structure InUtc (t : Instant) (date : Date) (clock : Clock) : Prop where
  valid : date.Valid
  day : date.Counted (t.second / 86400)
  years : -262143 ≤ date.year ∧ date.year ≤ 262142
  hour : clock.hour ≤ 23
  minute : clock.minute ≤ 59
  timeOfDay : t.second % 86400 =
    clock.hour * 3600 + clock.minute * 60 + if t.isLeap then 59 else clock.second
  second : if t.isLeap then clock.second = 60 else clock.second ≤ 59

theorem number_date (t : Instant) : t.date.number = t.second / 86400 := Date.number_ofNumber _

theorem of?_eq_some_iff {second : Int} {nano : Nat} {t : Instant} :
    of? second nano = some t ↔ t.second = second ∧ t.nano = nano := by
  constructor
  · intro h
    unfold of? at h
    split at h
    · obtain rfl := Option.some.inj h
      exact ⟨rfl, rfl⟩
    · cases h
  · rintro ⟨rfl, rfl⟩
    exact t.of?_self

/-- The second that begins at a date and a time of day is the one that they tell. -/
theorem ofParts?_eq_some_iff {date : Date} {clock : Clock} {t : Instant} (valid : date.Valid)
    (hour : clock.hour ≤ 23) (minute : clock.minute ≤ 59) (second : clock.second ≤ 60) :
    ofParts? date clock = some t ↔
      t.InUtc date clock ∧ t.nano = if clock.second = 60 then nanosPerSecond else 0 := by
  have range := t.inRange
  unfold ofParts?
  by_cases last : clock.second = 60
  · simp only [if_pos last, of?_eq_some_iff]
    constructor
    · rintro ⟨hsecond, hnano⟩
      have number : date.number = t.second / 86400 := by omega
      have years := (Date.number_range_iff valid).1 (by omega)
      have leap : t.isLeap = true := isLeap_iff.2 ⟨Nat.le_of_eq hnano.symm, by omega⟩
      refine ⟨⟨valid, Date.counted_iff.2 ⟨valid, number⟩, years, hour, minute, ?_, ?_⟩, hnano⟩
      · rw [if_pos leap]
        omega
      · rw [if_pos leap]
        exact last
    · rintro ⟨told, hnano⟩
      have number := (Date.counted_iff.1 told.day).2
      have time := told.timeOfDay
      have ends := told.second
      by_cases leap : t.isLeap = true
      · rw [if_pos leap] at time
        exact ⟨by omega, hnano⟩
      · rw [if_neg leap] at ends
        omega
  · simp only [if_neg last, of?_eq_some_iff]
    constructor
    · rintro ⟨hsecond, hnano⟩
      have number : date.number = t.second / 86400 := by omega
      have years := (Date.number_range_iff valid).1 (by omega)
      have common : ¬t.isLeap = true := by
        intro leap
        have beyond := (isLeap_iff.1 leap).1
        rw [hnano] at beyond
        exact absurd beyond (by decide)
      refine ⟨⟨valid, Date.counted_iff.2 ⟨valid, number⟩, years, hour, minute, ?_, ?_⟩, hnano⟩
      · rw [if_neg common]
        omega
      · rw [if_neg common]
        omega
    · rintro ⟨told, hnano⟩
      have number := (Date.counted_iff.1 told.day).2
      have time := told.timeOfDay
      have ends := told.second
      by_cases leap : t.isLeap = true
      · rw [if_pos leap] at ends
        exact absurd ends last
      · rw [if_neg leap] at time
        exact ⟨by omega, hnano⟩

/-- The date and the time of day that clocks show are those of the second that is read off them. -/
theorem inUtc_parts (t : Instant) : t.wholeSecond.InUtc t.date t.clock := by
  obtain ⟨hour, minute, second⟩ := t.clock_bounds
  exact ((ofParts?_eq_some_iff t.date_valid hour minute second).1 t.ofParts?_parts).1

theorem InUtc.unique {t : Instant} {date date' : Date} {clock clock' : Clock} (h : t.InUtc date clock)
    (h' : t.InUtc date' clock') : date = date' ∧ clock = clock' := by
  have number := (Date.counted_iff.1 h.day).2
  have number' := (Date.counted_iff.1 h'.day).2
  refine ⟨Date.number_injective h.valid h'.valid (number.trans number'.symm), ?_⟩
  have minute := h.minute
  have minute' := h'.minute
  have same := h.timeOfDay.symm.trans h'.timeOfDay
  have second := h.second
  have second' := h'.second
  obtain ⟨hh, mm, ss⟩ := clock
  obtain ⟨hh', mm', ss'⟩ := clock'
  by_cases leap : t.isLeap = true
  · simp only [if_pos leap] at *
    simp only [Clock.mk.injEq]
    omega
  · simp only [if_neg leap] at *
    simp only [Clock.mk.injEq]
    omega

theorem InUtc.second_eq {t t' : Instant} {date : Date} {clock : Clock} (h : t.InUtc date clock)
    (h' : t'.InUtc date clock) : t.second = t'.second := by
  have number := (Date.counted_iff.1 h.day).2
  have number' := (Date.counted_iff.1 h'.day).2
  have time := h.timeOfDay
  have time' := h'.timeOfDay
  have second := h.second
  have second' := h'.second
  cases leap : t.isLeap <;> cases leap' : t'.isLeap <;> simp only [leap, leap', if_true, Bool.false_eq_true,
    if_false] at time time' second second' <;> omega

/-- There is an instant for each day of the years from -262143 to 262142, each second of the day and each part
below `2 * 10^9`, and no other. -/
theorem exists_second_iff {date : Date} {time : Int} {nano : Nat} :
    (∃ t : Instant, t.date = date ∧ t.second % 86400 = time ∧ t.nano = nano) ↔
      date.Valid ∧ (-262143 ≤ date.year ∧ date.year ≤ 262142) ∧ (0 ≤ time ∧ time < 86400) ∧
        nano < 2 * nanosPerSecond := by
  constructor
  · rintro ⟨t, rfl, rfl, rfl⟩
    have range := t.inRange
    have number := t.number_date
    have years := (Date.number_range_iff t.date_valid).1 (by omega)
    exact ⟨t.date_valid, years, by omega, t.nano_lt⟩
  · rintro ⟨valid, years, ofDay, part⟩
    have number := (Date.number_range_iff valid).2 years
    let t : Instant := ⟨date.number * 86400 + time, nano, by omega, part⟩
    -- Whole days, and what is less than a day, are parted again.
    have day : t.second / 86400 = date.number := by
      show (date.number * 86400 + _) / 86400 = date.number
      omega
    have rest : t.second % 86400 = time := by
      show (date.number * 86400 + time) % 86400 = time
      omega
    exact ⟨t, Date.number_injective t.date_valid valid (t.number_date.trans day), rest, rfl⟩

/-- Each time of day of such a day is told of an instant, which is the start of its second. -/
theorem exists_inUtc {date : Date} {clock : Clock} (valid : date.Valid)
    (years : -262143 ≤ date.year ∧ date.year ≤ 262142) (hour : clock.hour ≤ 23) (minute : clock.minute ≤ 59)
    (second : clock.second ≤ 60) :
    ∃ t : Instant, t.InUtc date clock ∧ t.nano = if clock.second = 60 then nanosPerSecond else 0 := by
  have number := (Date.number_range_iff valid).2 years
  simp only [← ofParts?_eq_some_iff valid hour minute second]
  unfold ofParts?
  by_cases leap : clock.second = 60
  · rw [if_pos leap]
    exact ⟨⟨_, _, by omega, by decide⟩, of?_eq_some_iff.2 ⟨rfl, rfl⟩⟩
  · rw [if_neg leap]
    exact ⟨⟨_, _, by omega, by decide⟩, of?_eq_some_iff.2 ⟨rfl, rfl⟩⟩

/-! ## Whole seconds -/

theorem not_runsOver_of_isLeap {t : Instant} (leap : t.isLeap = true) : t.runsOver = false :=
  Bool.eq_false_iff.2 fun runs => (runsOver_iff.1 runs).2 (isLeap_iff.1 leap).2

/-- The part of an instant runs over only if there is one beyond the second. -/
theorem not_runsOver_of_lt {t : Instant} (within : t.nano < nanosPerSecond) : t.runsOver = false :=
  Bool.eq_false_iff.2 fun runs => Nat.not_le.2 within (runsOver_iff.1 runs).1

theorem wholeSecond_of_runsOver {t : Instant} (runs : t.runsOver = true) :
    t.wholeSecond.second = t.second + 1 ∧ t.wholeSecond.nano = 0 := by
  unfold wholeSecond
  rw [dif_pos runs]
  exact ⟨rfl, rfl⟩

theorem wholeSecond_of_not_runsOver {t : Instant} (stays : t.runsOver = false) : t.wholeSecond = t.cut := by
  unfold wholeSecond
  rw [dif_neg (Bool.eq_false_iff.1 stays)]

/-- The second that clocks show is that of the instant itself but where the part runs over. -/
theorem wholeSecond_eq_cut_iff {t : Instant} : t.wholeSecond = t.cut ↔ t.runsOver = false := by
  refine ⟨fun same => ?_, wholeSecond_of_not_runsOver⟩
  cases runs : t.runsOver with
  | true =>
    have next : t.cut.second = t.second + 1 := same ▸ (wholeSecond_of_runsOver runs).1
    have own : t.cut.second = t.second := rfl
    omega
  | false => rfl

theorem second_wholeSecond (t : Instant) :
    t.wholeSecond.second = if t.runsOver then t.second + 1 else t.second := by
  cases runs : t.runsOver with
  | true => exact (wholeSecond_of_runsOver runs).1
  | false => rw [wholeSecond_of_not_runsOver runs]; rfl

theorem nano_wholeSecond (t : Instant) :
    t.wholeSecond.nano = if t.isLeap then nanosPerSecond else 0 := by
  cases runs : t.runsOver with
  | true =>
    have common : ¬t.isLeap = true := fun leap => by rw [not_runsOver_of_isLeap leap] at runs; cases runs
    rw [(wholeSecond_of_runsOver runs).2, if_neg common]
  | false => rw [wholeSecond_of_not_runsOver runs]; rfl

theorem isLeap_cut (t : Instant) : t.cut.isLeap = t.isLeap := by
  rw [Bool.eq_iff_iff, isLeap_iff]
  constructor
  · rintro ⟨beyond, -⟩
    by_contra common
    rw [show t.cut.nano = 0 from if_neg common] at beyond
    exact absurd beyond (by decide)
  · intro leap
    exact ⟨Nat.le_of_eq (if_pos leap).symm, (isLeap_iff.1 leap).2⟩

/-- Date and time of day do not tell the part of a second. -/
theorem inUtc_cut_iff {t : Instant} {date : Date} {clock : Clock} : t.cut.InUtc date clock ↔ t.InUtc date clock := by
  have same := t.isLeap_cut
  constructor
  · rintro ⟨valid, day, years, hour, minute, timeOfDay, second⟩
    rw [same] at timeOfDay second
    exact ⟨valid, day, years, hour, minute, timeOfDay, second⟩
  · rintro ⟨valid, day, years, hour, minute, timeOfDay, second⟩
    rw [← same] at timeOfDay second
    exact ⟨valid, day, years, hour, minute, timeOfDay, second⟩

/-- Where the part does not run over, clocks show the date and the time of day of the instant. -/
theorem inUtc_iff {t : Instant} {date : Date} {clock : Clock} (stays : t.runsOver = false) :
    t.InUtc date clock ↔ t.date = date ∧ t.clock = clock := by
  have parts : t.InUtc t.date t.clock := by
    rw [← inUtc_cut_iff, ← wholeSecond_of_not_runsOver stays]
    exact t.inUtc_parts
  constructor
  · exact fun told => parts.unique told
  · rintro ⟨rfl, rfl⟩
    exact parts

/-- An instant without a part is the start of a second, and so is that of a leap second without a further part. -/
theorem InUtc.wholeSecond_eq {t : Instant} {date : Date} {clock : Clock} (h : t.InUtc date clock)
    (nano : t.nano = if clock.second = 60 then nanosPerSecond else 0) : t.wholeSecond = t := by
  have second := h.second
  by_cases leap : t.isLeap = true
  · have stays := not_runsOver_of_isLeap leap
    rw [if_pos leap] at second
    rw [if_pos second] at nano
    rw [wholeSecond_of_not_runsOver stays]
    exact Instant.ext rfl (by rw [nano]; exact if_pos leap)
  · rw [if_neg leap] at second
    rw [if_neg (by omega)] at nano
    rw [wholeSecond_of_not_runsOver (not_runsOver_of_lt (by rw [nano]; decide))]
    exact Instant.ext rfl (by rw [nano]; exact if_neg leap)

theorem runsOver_wholeSecond (t : Instant) : t.wholeSecond.runsOver = false := by
  rw [Bool.eq_false_iff, Ne, runsOver_iff]
  rintro ⟨beyond, within⟩
  rw [nano_wholeSecond] at beyond
  by_cases leap : t.isLeap = true
  · rw [wholeSecond_of_not_runsOver (not_runsOver_of_isLeap leap)] at within
    exact within (isLeap_iff.1 leap).2
  · rw [if_neg leap] at beyond
    exact absurd beyond (by decide)

end Instant

namespace ZonedText

/-! ## Reading back -/

/-- The text of an instant, held for any place, reads back as the start of a second: of the second of the
instant, a leap second as one, and of the one that follows exactly if the part of the second runs over. The second
of the instant is the one on the clocks of the place without their offset. Instants go from the year -262143 to the
year 262142, and there is one for each day, second and part below two seconds. -/
theorem reads_wholeSecond :
    (∀ (date : Date) (time : Int) (nano : Nat),
      (∃ t : Instant, t.date = date ∧ t.second % 86400 = time ∧ t.nano = nano) ↔
        date.Valid ∧ (-262143 ≤ date.year ∧ date.year ≤ 262142) ∧ (0 ≤ time ∧ time < 86400) ∧
          nano < 2 * nanosPerSecond) ∧
      ∀ z : Zoned, ∃ t : Instant, DateText.parse (format z) = .ok t ∧
        t.second = (if z.instant.runsOver then z.second - z.offset + 1 else z.second - z.offset) ∧
        t.nano = (if z.instant.isLeap then nanosPerSecond else 0) ∧
        (t = z.instant.cut ↔ z.instant.runsOver = false) :=
  ⟨fun _ _ _ => Instant.exists_second_iff, fun z => ⟨z.instant.wholeSecond, DateText.parse_format z.instant,
    z.instant.second_wholeSecond, z.instant.nano_wholeSecond, Instant.wholeSecond_eq_cut_iff⟩⟩

/-- The leap second that ends a minute on clocks 30 seconds ahead ends none in universal time. What is read back
for it is the second that follows. -/
theorem reads_following_second :
    ∃ z : Zoned, z.second = 1308133859 ∧ z.nano = nanosPerSecond ∧ z.offset = 30 ∧
      format z = "2011-06-15T10:30:30Z" ∧
      ∃ t, DateText.parse (format z) = .ok t ∧ t.second = 1308133830 ∧ z.instant.second = 1308133829 ∧
        t ≠ z.instant.cut := by
  refine ⟨⟨1308133859, nanosPerSecond, 30, by decide, by decide, by decide⟩, rfl, rfl, rfl, by decide +kernel, _,
    DateText.parse_format _, ?_, rfl, ?_⟩
  · exact (Instant.wholeSecond_of_runsOver (by decide)).1
  · exact fun same => absurd (Instant.wholeSecond_eq_cut_iff.1 same) (by decide)

/-! ## What is told -/

theorem format_wholeSecond (t : Instant) : DateText.format t.wholeSecond = DateText.format t := by
  obtain ⟨date, clock⟩ := (Instant.inUtc_iff t.runsOver_wholeSecond).1 t.inUtc_parts
  unfold DateText.format DateText.chars
  rw [date, clock]

/-- Two texts are the same if clocks show the same second. -/
theorem format_eq_iff {z z' : Zoned} :
    format z' = format z ↔ z'.instant.wholeSecond = z.instant.wholeSecond := by
  constructor
  · intro same
    have reads : DateText.parse (format z') = DateText.parse (format z) := congrArg DateText.parse same
    unfold format at reads
    rw [DateText.parse_format, DateText.parse_format] at reads
    exact Except.ok.inj reads
  · intro same
    show DateText.format z'.instant = DateText.format z.instant
    rw [← format_wholeSecond, same, format_wholeSecond]

/-! ## In a document -/

theorem textLiteral_format (z : Zoned) :
    Json.textLiteral (format z) = '"' :: ((format z).toList ++ ['"']) := by
  have plain : ∀ c ∈ (format z).toList, Json.escape c = [c] := by
    intro c hc
    have written : DateText.Written z.instant.date z.instant.clock (format z).toList :=
      DateText.written_iff.2 rfl
    rcases written.mem c hc with digit | mark
    · have bounds := Decimal.isDigit_bounds digit
      refine Json.escape_plain ?_ ?_ (by omega)
      · exact Decimal.ne_of_isDigit digit (by decide)
      · exact Decimal.ne_of_isDigit digit (by decide)
    · have marks : ['-', '+', ':', 'T', 'Z'].all (fun c => Json.escape c == [c]) = true := by decide
      exact eq_of_beq (List.all_eq_true.1 marks c mark)
  have same : (format z).toList.flatMap Json.escape = (format z).toList :=
    calc (format z).toList.flatMap Json.escape
        = (format z).toList.flatMap fun c => [c] := by
          rw [List.flatMap_def, List.flatMap_def, List.map_congr_left plain]
      _ = (format z).toList := List.flatMap_singleton' _
  unfold Json.textLiteral
  rw [same]

theorem wide_format (z : Zoned) :
    (Json.Tree.string (format z) : Json.Value).wide = "\"" ++ format z ++ "\"" := by
  show String.ofList (Json.textLiteral (format z)) = _
  rw [textLiteral_format, ← String.toList_inj]
  simp

/-- The text of an instant, held for any place, is the one that tells the date and the time of day in universal
time of the second that clocks show. These are the date and the time of day of the instant, unless the part of its
second runs over; then they are those of the next second. The second of the instant is the one on the clocks of the
place without their offset. The text stands in a document as it is, between quotes. Only the second counts, whatever
the part of it and wherever the instant is held, and a leap second counts for itself. -/
theorem format_tells (z : Zoned) :
    ∃ date clock, z.instant.wholeSecond.InUtc date clock ∧
      z.instant.wholeSecond.second =
        (if z.instant.runsOver then z.second - z.offset + 1 else z.second - z.offset) ∧
      z.instant.wholeSecond.nano = (if z.instant.isLeap then nanosPerSecond else 0) ∧
      (z.instant.InUtc date clock ↔ z.instant.runsOver = false) ∧
      (∀ text : String, DateText.Written date clock text.toList ↔ text = format z) ∧
      (0 ≤ date.year ∧ date.year ≤ 9999 → (Utf8.encode (format z).toList).length = 20) ∧
      Json.Shape.instant.encode z.instant = "\"" ++ format z ++ "\"" ∧
      Json.Draft.encode (.string (format z)) = .ok ("\"" ++ format z ++ "\"") ∧
      ∀ z' : Zoned, format z' = format z ↔ z'.instant.wholeSecond = z.instant.wholeSecond := by
  have document := wide_format z
  have told := z.instant.inUtc_parts
  refine ⟨z.instant.date, z.instant.clock, told, z.instant.second_wholeSecond, z.instant.nano_wholeSecond, ?_,
    fun _ => DateText.written_iff, ?_, document, ?_, fun _ => format_eq_iff⟩
  · constructor
    · intro own
      cases runs : z.instant.runsOver with
      | true =>
        have next := (Instant.wholeSecond_of_runsOver runs).1
        have same := own.second_eq told
        omega
      | false => rfl
    · exact fun stays => (Instant.inUtc_iff stays).2 ⟨rfl, rfl⟩
  · exact (DateText.written_iff.2 rfl : DateText.Written _ _ (format z).toList).length_encode
  · show Except.ok (Json.Tree.string (format z) : Json.Value).wide = _
    rw [document]

/-- One and a half seconds after the full minute, the text tells another date and time of day than those of the
instant. -/
theorem format_tells_following_second :
    ∃ z : Zoned, z.second = 1308133800 ∧ z.nano = 1500000000 ∧ z.offset = 0 ∧
      z.instant.InUtc ⟨2011, 6, 15⟩ ⟨10, 30, 0⟩ ∧ format z = "2011-06-15T10:30:01Z" ∧
      ∀ date clock, z.instant.InUtc date clock → ¬DateText.Written date clock (format z).toList := by
  let z : Zoned := ⟨1308133800, 1500000000, 0, by decide, by decide, by decide⟩
  let start : Instant := ⟨1308133800, 0, by decide, by decide⟩
  have number : (⟨2011, 6, 15⟩ : Date).number = z.instant.second / 86400 := by decide
  have valid : (⟨2011, 6, 15⟩ : Date).Valid := by decide
  have told : z.instant.InUtc ⟨2011, 6, 15⟩ ⟨10, 30, 0⟩ :=
    ⟨valid, Date.counted_iff.2 ⟨valid, number⟩, by decide, by decide, by decide, by decide, by decide⟩
  have shown : format z = "2011-06-15T10:30:01Z" := by decide +kernel
  refine ⟨z, rfl, rfl, rfl, told, shown, fun date clock own written => ?_⟩
  obtain ⟨rfl, rfl⟩ := told.unique own
  -- The form has one text, which is the one of the full minute.
  have parts : start.date = ⟨2011, 6, 15⟩ ∧ start.clock = ⟨10, 30, 0⟩ := by decide
  rw [← parts.1, ← parts.2] at written
  have other : format z = DateText.format start := DateText.written_iff.1 written
  rw [shown] at other
  exact absurd other (by decide +kernel)

end ZonedText

end Courier
