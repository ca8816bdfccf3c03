import Courier.Proofs.Json.Settled
import Courier.Proofs.Objects

set_option autoImplicit false

/-! # Dates of a document

A date is read from every text that tells one, padded or not, and not only from the text that is written for
it. The written text is among those that are read, so it comes back for a date exactly if the date had been
given in that form (`DateText.format_eq_iff`). In a document a date stands between quotes and may be spelled
with escapes; none of that reaches the reader of dates (`Json.Quotes.read_iff`).
-/

namespace Courier

namespace DateText

open Decimal

/-! ## The written form is one of those that are read -/

theorem spelledNumber_of_padded {most width n : Nat} {ds : List Char} (wide : 1 ≤ width ∧ width ≤ most)
    (h : Padded width n ds) : SpelledNumber most n ds :=
  ⟨[], ds, width, rfl, by simp, wide, h⟩

theorem WrittenYear.spelled {y : Int} {s : List Char} (h : WrittenYear y s) : SpelledYear y s := by
  cases h with
  | plain near padded =>
    have natural : (y.natAbs : Int) = y := by omega
    have numeral : SpelledNumber 4 y.natAbs s := spelledNumber_of_padded (by decide) padded
    rw [← natural]
    exact .plain numeral
  | @signed width ds far wide padded _ =>
    have spelled := @SpelledYear.signed y.natAbs width [] ds (decide (y < 0)) (by simp) (by omega) padded
    simp only [decide_eq_true_eq, List.nil_append] at spelled
    have told : (if y < 0 then -(y.natAbs : Int) else y.natAbs) = y := by
      split <;> omega
    rw [told] at spelled
    exact spelled

theorem Written.spelled {date : Date} {clock : Clock} {s : List Char} (h : Written date clock s) :
    Spelled date clock s := by
  obtain ⟨year, month, day, hour, minute, second, rfl, hy, hm, hd, hh, hmin, hs⟩ := h
  have two : ∀ {n : Nat} {ds : List Char}, Padded 2 n ds → SpelledNumber 2 n ds :=
    fun padded => spelledNumber_of_padded (by decide) padded
  exact ⟨year, month, day, hour, minute, second, rfl, hy.spelled, two hm, two hd, two hh, two hmin, two hs⟩

/-- Of the texts that are read as an instant, the one in the written form is written for it again. -/
theorem format_eq_iff {text : String} {t : Instant} (h : parse text = .ok t) :
    format t = text ↔ ∃ date clock, Written date clock text.toList := by
  constructor
  · rintro rfl
    exact ⟨t.date, t.clock, written_iff.2 rfl⟩
  · rintro ⟨date, clock, written⟩
    -- The text tells one date only, and that is the date of the instant.
    obtain ⟨date', clock', spelled, told, nano⟩ := parse_eq_ok_iff.1 h
    obtain ⟨rfl, rfl⟩ := written.spelled.unique spelled
    have stays := t.runsOver_wholeSecond
    rw [told.wholeSecond_eq nano] at stays
    obtain ⟨rfl, rfl⟩ := (Instant.inUtc_iff stays).1 told
    exact (written_iff.1 written).symm

end DateText

namespace Json

/-- The document is one literal, which spells the text. -/
def Quotes (document text : String) : Prop :=
  ∃ before inside after : List Char, document.toList = before ++ '"' :: (inside ++ '"' :: after) ∧
    Blanks before ∧ Blanks after ∧ Literal.Spells inside text.toList

/-- A literal is read as a date up to its end, if the text that it spells is one; and it is not `null`. -/
theorem Quotes.read_iff {document text : String} (h : Quotes document text) :
    ∃ after, dropSpace after = [] ∧ (∀ tail, dropSpace document.toList ≠ 'n' :: tail) ∧
      ∀ t rest, readInstant nestingLimit document.toList = .ok (t, rest) ↔
        rest = after ∧ DateText.parse text = .ok t := by
  obtain ⟨before, inside, after, same, hb, ha, spells⟩ := h
  have begins : dropSpace document.toList = '"' :: (inside ++ '"' :: after) := by
    rw [same, dropSpace_append hb, dropSpace_cons (by decide)]
  have told : readText nestingLimit document.toList = .ok (text, after) := by
    refine afterSpace_eq_ok_iff.2 ⟨_, _, begins, ?_⟩
    rw [if_pos rfl]
    exact Literal.read_eq_ok_iff.2 ⟨inside, rfl, spells⟩
  refine ⟨after, dropSpace_eq_nil_iff.2 ha, ?_, ?_⟩
  · intro tail null
    rw [begins] at null
    exact absurd (List.cons.inj null).1 (by decide)
  · intro t rest
    rw [Shape.readInstant_eq_ok_iff, told]
    constructor
    · rintro ⟨text', same, parsed⟩
      obtain ⟨rfl, rfl⟩ := Prod.mk.inj (Except.ok.inj same)
      exact ⟨rfl, parsed⟩
    · rintro ⟨rfl, parsed⟩
      exact ⟨text, rfl, parsed⟩

theorem Quotes.instant_iff {document text : String} (h : Quotes document text) (t : Instant) :
    Shape.instant.decode document = .ok t ↔ DateText.parse text = .ok t := by
  obtain ⟨after, blank, -, read⟩ := h.read_iff
  rw [Shape.decode_eq_ok_iff]
  constructor
  · rintro ⟨rest, taken, -⟩
    exact ((read t rest).1 taken).2
  · intro parsed
    exact ⟨after, (read t after).2 ⟨rfl, parsed⟩, blank⟩

theorem Quotes.optional_iff {document text : String} (h : Quotes document text) (t? : Option Instant) :
    (Shape.optional .instant).decode document = .ok t? ↔ ∃ t, DateText.parse text = .ok t ∧ t? = some t := by
  obtain ⟨after, blank, notNull, read⟩ := h.read_iff
  rw [Shape.decode_eq_ok_iff]
  constructor
  · rintro ⟨rest, taken, -⟩
    rcases readOptional_eq_ok_iff.1 taken with ⟨null, -⟩ | ⟨-, t, there, rfl⟩
    · exact absurd null (notNull _)
    · exact ⟨t, ((read t rest).1 there).2, rfl⟩
  · rintro ⟨t, parsed, rfl⟩
    exact ⟨after, readOptional_eq_ok_iff.2 (.inr ⟨notNull, t, (read t after).2 ⟨rfl, parsed⟩, rfl⟩), blank⟩

theorem repository_dates {entries : List Entry} {document value text : String} {r : Repository}
    (object : ObjectText entries document) (quotes : Quotes value text)
    (decoded : Shape.repository.decode document = .ok r) :
    (valuesUnder "lastChange" entries = [value] → DateText.parse text = .ok r.lastChange) ∧
      (valuesUnder "createdAt" entries = [value] →
        ∃ t, DateText.parse text = .ok t ∧ r.createdAt = some t) := by
  obtain ⟨-, ⟨name, description, owner, lastChange, createdAt, frozen, ⟨⟩⟩, ⟨-, -, -, last, created, -⟩, rfl⟩ :=
    (Repository.record.decode_object_iff Shape.repository_ready object r).1 decoded
  constructor
  · intro only
    have last : DecodedUnder entries "lastChange" .instant none lastChange := last
    unfold DecodedUnder at last
    rw [only] at last
    exact (quotes.instant_iff lastChange).1 last
  · intro only
    have created : DecodedUnder entries "createdAt" (.optional .instant) (some none) createdAt := created
    unfold DecodedUnder at created
    rw [only] at created
    exact (quotes.optional_iff createdAt).1 created

end Json

open Json

/-- A text that is read as a date is written as another one unless it has the written form, and the one that
is written is read as the same date. A document with a literal of a text is decoded as a date exactly if the
text is read as that date, whatever its form, and has a fault of its spelling if the text is not read. So it
is with a document of a repository, whose dates are those that are read from its members. -/
theorem dates_accepted (text : String) :
    (∀ t, DateText.parse text = .ok t →
      DateText.parse (DateText.format t) = .ok t ∧
        (DateText.format t = text ↔ ∃ date clock, DateText.Written date clock text.toList)) ∧
    (∀ document, Quotes document text →
      (∀ t, Shape.instant.decode document = .ok t ↔ DateText.parse text = .ok t) ∧
      ((∀ t, DateText.parse text ≠ .ok t) →
        ∃ fault, Shape.instant.decode document = .error (.malformed fault))) ∧
    ∀ entries document value, ObjectText entries document → Quotes value text →
      (∀ r, Shape.repository.decode document = .ok r →
        (valuesUnder "lastChange" entries = [value] → DateText.parse text = .ok r.lastChange) ∧
        (valuesUnder "createdAt" entries = [value] →
          ∃ t, DateText.parse text = .ok t ∧ r.createdAt = some t)) ∧
      ((∀ t, DateText.parse text ≠ .ok t) →
        valuesUnder "lastChange" entries = [value] ∨ valuesUnder "createdAt" entries = [value] →
        ∃ fault, Shape.repository.decode document = .error (.malformed fault)) := by
  refine ⟨?_, ?_, ?_⟩
  · intro t read
    refine ⟨?_, DateText.format_eq_iff read⟩
    rw [DateText.parse_format, DateText.wholeSecond_of_parse read]
  · intro document quotes
    refine ⟨quotes.instant_iff, fun unread => ?_⟩
    apply Shape.decode_eq_malformed
    intro t decoded
    exact unread t ((quotes.instant_iff t).1 decoded)
  · intro entries document value object quotes
    refine ⟨fun r => repository_dates object quotes, fun unread member => ?_⟩
    apply Shape.decode_eq_malformed
    intro r decoded
    have dates := repository_dates object quotes decoded
    rcases member with last | created
    · exact unread r.lastChange (dates.1 last)
    · obtain ⟨t, parsed, -⟩ := dates.2 created
      exact unread t parsed

/-- A literal whose text is not padded, and spelled with an escape. -/
theorem dates_accepted_in_literal :
    Quotes "\"2011-6-5T1:2:3\\u005a\"" "2011-6-5T1:2:3Z" ∧
      ∃ t, DateText.parse "2011-6-5T1:2:3Z" = .ok t ∧
        Shape.instant.decode "\"2011-6-5T1:2:3\\u005a\"" = .ok t ∧
        DateText.parse (DateText.format t) = .ok t := by
  have spells : Literal.Spells "2011-6-5T1:2:3\\u005a".toList "2011-6-5T1:2:3Z".toList := by
    apply Literal.spells_of_read
    decide +kernel
  have quotes : Quotes "\"2011-6-5T1:2:3\\u005a\"" "2011-6-5T1:2:3Z" :=
    ⟨[], _, [], rfl, blanks_nil, blanks_nil, spells⟩
  have read : DateText.parse "2011-6-5T1:2:3Z" = .ok ⟨1307235723, 0, by decide, by decide⟩ := by
    decide +kernel
  obtain ⟨back, documents, -⟩ := dates_accepted "2011-6-5T1:2:3Z"
  exact ⟨quotes, _, read, ((documents _ quotes).1 _).2 read, (back _ read).1⟩

/-- A date that is not padded is read, by itself and in a repository, and another text is written for it. -/
theorem unpadded_date_accepted :
    ∃ t : Instant, DateText.parse "2011-6-5T1:2:3Z" = .ok t ∧ DateText.format t ≠ "2011-6-5T1:2:3Z" ∧
      Shape.repository.decode "\x7b\"name\":\"a\",\"lastChange\":\"2011-6-5T1:2:3Z\"\x7d"
        = .ok ⟨"a", "", "", t, none, false⟩ := by
  have read : DateText.parse "2011-6-5T1:2:3Z" = .ok ⟨1307235723, 0, by decide, by decide⟩ := by
    decide +kernel
  exact ⟨_, read, by decide +kernel, by decide +kernel⟩

end Courier
