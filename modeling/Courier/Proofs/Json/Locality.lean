import Courier.Json.Choice
import Courier.Json.Dates
import Courier.Proofs.Json.Literal
import Courier.Proofs.Json.Shape

set_option autoImplicit false

/-! # A value is read alike wherever it stands

What a reader gives depends on the text of the value alone: not on the blanks before it, not on what comes
after it, and not on how many containers are open, as long as those that the value needs may be opened
(`Shape.Local`). So what the value of a member means can be told by decoding it as a document of its own
(`Shape.Local.asDocument`).
-/

namespace Courier.Json

/-- A text is the blanks at its head and what follows them. -/
theorem exists_space (s : List Char) : ∃ blanks, s = blanks ++ dropSpace s ∧ Blanks blanks :=
  ⟨s.takeWhile isSpace, List.takeWhile_append_dropWhile.symm, fun _ => List.mem_takeWhile_imp⟩

/-- A mark that comes next, after blanks or without them, ends a part. -/
theorem endsPart_of_dropSpace {s tail : List Char} {c : Char} (next : dropSpace s = c :: tail)
    (mark : c = ',' ∨ c = ']' ∨ c = '}') : EndsPart s := by
  obtain ⟨blanks, split, hb⟩ := exists_space s
  rw [split, next]
  exact endsPart_blanks hb mark tail

/-! ## Integers -/

namespace Numeral

open Decimal

theorem splitDigits_eq {s ds rest : List Char} (h : splitDigits s = (ds, rest)) :
    s = ds ++ rest ∧ ∀ c ∈ ds, c.isDigit = true := by
  unfold splitDigits at h
  rw [List.span_eq_takeWhile_dropWhile] at h
  obtain ⟨rfl, rfl⟩ := Prod.mk.inj h
  exact ⟨List.takeWhile_append_dropWhile.symm, fun _ => List.mem_takeWhile_imp⟩

theorem whole_of_readWhole {s whole rest : List Char} (h : readWhole s = .ok (whole, rest)) :
    s = whole ++ rest ∧ Whole whole := by
  unfold readWhole at h
  split at h
  · cases h
  · next c tail =>
    split at h
    · next zero =>
      subst zero
      split at h
      · obtain ⟨rfl, rfl⟩ := Prod.mk.inj (Except.ok.inj h)
        exact ⟨rfl, .zero⟩
      · split at h
        · cases h
        · obtain ⟨rfl, rfl⟩ := Prod.mk.inj (Except.ok.inj h)
          exact ⟨rfl, .zero⟩
    · next notZero =>
      split at h
      · next digit =>
        obtain ⟨rfl, rfl⟩ := Prod.mk.inj (Except.ok.inj h)
        obtain ⟨split, digits⟩ := splitDigits_eq (s := tail) rfl
        exact ⟨congrArg (c :: ·) split, .digits digit notZero digits⟩
      · cases h

theorem readFraction_eq_nil {s rest : List Char} (h : readFraction s = .ok ([], rest)) : s = rest := by
  unfold readFraction at h
  split at h
  · obtain ⟨-, rfl⟩ := Prod.mk.inj (Except.ok.inj h)
    rfl
  · split at h
    · -- A point has digits behind it, so there would be some.
      split at h
      · cases h
      · cases h
      · next digits after _ some _ =>
        obtain ⟨rfl, rfl⟩ := Prod.mk.inj (Except.ok.inj h)
        exact (some rfl).elim
    · obtain ⟨-, rfl⟩ := Prod.mk.inj (Except.ok.inj h)
      rfl

theorem readExponent_eq_none {isZero : Bool} {s rest : List Char}
    (h : readExponent isZero s = .ok (none, rest)) : s = rest := by
  unfold readExponent at h
  split at h
  · obtain ⟨-, rfl⟩ := Prod.mk.inj (Except.ok.inj h)
    rfl
  · split at h
    · obtain ⟨p, -, same⟩ := Except.map_eq_ok_iff.1 h
      cases (Prod.mk.inj same).1
    · obtain ⟨-, rfl⟩ := Prod.mk.inj (Except.ok.inj h)
      rfl

/-- When no digit is left over, the number is the one that the digits stand for. -/
theorem absorb_eq_nil {ds : List Char} {m n : Nat} (h : absorb m ds = (n, [])) :
    n = ds.foldl (fun n c => n * 10 + digitValue c) m := by
  induction ds generalizing m with
  | nil => exact (Prod.mk.inj h).1.symm
  | cons c ds ih =>
    rw [absorb] at h
    by_cases fits : m * 10 + digitValue c < 0x10000000000000000
    · simp only [if_pos fits] at h
      exact ih h
    · simp only [if_neg fits] at h
      cases (Prod.mk.inj h).2

/-- Only an integer part alone makes an integer, the one that its digits stand for, and a minus sign one below
zero. -/
theorem assemble_eq_integer {negative : Bool} {whole fraction : List Char} {power : Option Power} {n : Int}
    {inRange : Number.InRange n} (h : assemble negative whole fraction power = some (.integer n inRange)) :
    fraction = [] ∧ power = none ∧ (negative = true → n < 0) ∧
      n = if negative then -(value whole : Int) else value whole := by
  unfold assemble at h
  by_cases plain : (fraction.isEmpty && power.isNone && (absorb 0 whole).2.isEmpty) = true ∧
      Number.InRange (if negative then -((absorb 0 whole).1 : Int) else (absorb 0 whole).1) ∧
        ¬(negative = true ∧ (absorb 0 whole).1 = 0)
  · obtain rfl := Number.integer.inj (Option.some.inj ((dif_pos plain).symm.trans h))
    obtain ⟨parts, -, nonzero⟩ := plain
    simp only [Bool.and_eq_true, List.isEmpty_iff, Option.isNone_iff_eq_none] at parts
    have taken : (absorb 0 whole).1 = value whole := absorb_eq_nil (Prod.ext rfl parts.2)
    refine ⟨parts.1.1, parts.1.2, ?_, by rw [taken]⟩
    rintro rfl
    simp only [true_and] at nonzero
    rw [if_pos rfl]
    omega
  · obtain ⟨x, -, double⟩ := Option.map_eq_some_iff.1 ((dif_neg plain).symm.trans h)
    cases double

/-- An integer is read from an integer part alone, and so wherever that stands. -/
theorem read_eq_integer {negative : Bool} {s rest : List Char} {n : Int} {inRange : Number.InRange n}
    (h : read negative s = .ok (.integer n inRange, rest)) :
    (negative = true → n < 0) ∧ ∃ whole, s = whole ++ rest ∧ Whole whole ∧
      ∀ rest, EndsPart rest → read negative (whole ++ rest) = .ok (.integer n inRange, rest) := by
  unfold read at h
  obtain ⟨⟨whole, s₁⟩, readWhole, h⟩ := Except.bind_eq_ok_iff.1 h
  obtain ⟨⟨fraction, s₂⟩, readFraction, h⟩ := Except.bind_eq_ok_iff.1 h
  obtain ⟨⟨power, s₃⟩, readExponent, h⟩ := Except.bind_eq_ok_iff.1 h
  simp only at readFraction readExponent h
  split at h
  · next number assembled =>
    obtain ⟨rfl, rfl⟩ := Prod.mk.inj (Except.ok.inj h)
    obtain ⟨rfl, rfl, below, -⟩ := assemble_eq_integer assembled
    obtain rfl := readExponent_eq_none readExponent
    obtain rfl := readFraction_eq_nil readFraction
    obtain ⟨rfl, isWhole⟩ := whole_of_readWhole readWhole
    refine ⟨below, whole, rfl, isWhole, ?_⟩
    intro rest ends
    unfold read
    simp only [readWhole_append isWhole (noDigit_of_endsPart ends), readFraction_none ends,
      readExponent_none _ ends, assembled, bind, Except.bind]
  · cases h

end Numeral

theorem narrow_eq_ok_iff {scan : Scan Number} {m : UInt64} {rest : List Char} :
    narrow scan = .ok (m, rest) ↔
      ∃ n inRange, scan = .ok (.integer n inRange, rest) ∧ 0 ≤ n ∧ UInt64.ofNat n.toNat = m := by
  unfold narrow
  split
  · simp
  · next number after =>
    cases number with
    | double x => simp [Number.natural?]
    | integer n inRange =>
      unfold Number.natural?
      by_cases positive : 0 ≤ n
      · simp only [if_pos positive, Except.ok.injEq, Prod.mk.injEq, Number.integer.injEq]
        constructor
        · rintro ⟨rfl, rfl⟩
          exact ⟨n, inRange, ⟨rfl, rfl⟩, positive, rfl⟩
        · rintro ⟨n', -, ⟨rfl, rfl⟩, -, rfl⟩
          exact ⟨rfl, rfl⟩
      · simp only [if_neg positive, Except.ok.injEq, Prod.mk.injEq, Number.integer.injEq]
        constructor
        · intro failed
          cases failed
        · rintro ⟨n', -, ⟨rfl, -⟩, positive', -⟩
          exact absurd positive' positive

namespace Shape

variable {α : Type} {shape : Shape α} {height : Nat}

/-! ## The law -/

/-- The text is read as `a` wherever it stands, if `height` containers may be opened there. -/
def Reads (shape : Shape α) (height : Nat) (t : List Char) (a : α) : Prop :=
  ∀ depth, height ≤ depth → ∀ blanks, Blanks blanks → Takes (shape.read depth) (blanks ++ t) a

/-- What is read is the text of a value, and the text is read alike wherever it stands. -/
def Local (shape : Shape α) (height : Nat) : Prop :=
  ∀ depth s a rest, shape.read depth s = .ok (a, rest) →
    ∃ blanks t, s = blanks ++ (t ++ rest) ∧ Blanks blanks ∧ WellFormed t ∧ shape.Reads height t a

theorem Local.reads (h : shape.Local height) {depth : Nat} {blanks t rest after : List Char} {a : α}
    (hb : Blanks blanks) (wellFormed : WellFormed t) (ends : EndsPart rest) (ends' : EndsPart after)
    (read : shape.read depth (blanks ++ (t ++ rest)) = .ok (a, after)) :
    rest = after ∧ shape.Reads height t a := by
  obtain ⟨blanks', t', same, hb', wellFormed', reads⟩ := h _ _ _ _ read
  obtain ⟨rfl, rfl⟩ := WellFormed.unique hb hb' wellFormed wellFormed' ends ends' same
  exact ⟨rfl, reads⟩

theorem Local.decode_iff (h : shape.Local height) (room : height ≤ nestingLimit) {t : List Char}
    (wellFormed : WellFormed t) {a : α} :
    shape.decode (String.ofList t) = .ok a ↔ shape.Reads height t a := by
  rw [decode_eq_ok_iff, String.toList_ofList]
  constructor
  · rintro ⟨rest, read, blank⟩
    have ends : EndsPart rest := endsPart_of_blanks (dropSpace_eq_nil_iff.1 blank)
    have same : t = [] ++ (t ++ []) := by simp
    rw [same] at read
    exact (h.reads blanks_nil wellFormed endsPart_nil ends read).2
  · intro reads
    refine ⟨[], ?_, rfl⟩
    have read := reads nestingLimit room [] blanks_nil [] endsPart_nil
    rwa [List.nil_append, List.append_nil] at read

/-- With room for `depth` containers a value is read as what it is decoded as by itself. -/
def AsDocument (shape : Shape α) (depth : Nat) : Prop :=
  ∀ ⦃blanks t rest after : List Char⦄ ⦃a : α⦄, Blanks blanks → WellFormed t → EndsPart rest →
    EndsPart after →
      (shape.read depth (blanks ++ (t ++ rest)) = .ok (a, after) ↔
        rest = after ∧ shape.decode (String.ofList t) = .ok a)

theorem Local.asDocument (h : shape.Local height) {depth : Nat} (room : height ≤ depth)
    (limit : depth ≤ nestingLimit) : shape.AsDocument depth := by
  intro blanks t rest after a hb wellFormed ends ends'
  rw [h.decode_iff (Nat.le_trans room limit) wellFormed]
  constructor
  · exact h.reads hb wellFormed ends ends'
  · rintro ⟨rfl, reads⟩
    rw [← List.append_assoc]
    exact reads depth room blanks hb rest ends

/-- A reader that goes by the first character is local if it is so from that character on. -/
theorem local_of_afterSpace {take : Nat → Char → List Char → Scan α}
    (isRead : ∀ depth s, shape.read depth s = afterSpace (take depth) s)
    (h : ∀ depth c tail a rest, take depth c tail = .ok (a, rest) →
      ∃ t, tail = t ++ rest ∧ WellFormed (c :: t) ∧
        ∀ depth, height ≤ depth → ∀ rest, EndsPart rest → take depth c (t ++ rest) = .ok (a, rest)) :
    shape.Local height := by
  intro depth s a rest read
  rw [isRead] at read
  obtain ⟨c, tail, begins, taken⟩ := afterSpace_eq_ok_iff.1 read
  obtain ⟨blanks, split, hb⟩ := exists_space s
  obtain ⟨t, rfl, wellFormed, takes⟩ := h depth c tail a rest taken
  refine ⟨blanks, c :: t, by rw [split, begins]; rfl, hb, wellFormed, ?_⟩
  intro depth room blanks hb rest ends
  rw [isRead, afterSpace_eq_ok_iff, List.append_assoc, wellFormed.dropSpace hb]
  exact ⟨c, t ++ rest, rfl, takes depth room rest ends⟩

/-! ## Plain data -/

theorem text_local : text.Local 0 := by
  refine local_of_afterSpace (fun _ _ => rfl) ?_
  intro depth c tail a rest taken
  split at taken
  · next quote =>
    obtain ⟨inside, rfl, spells⟩ := Literal.read_eq_ok_iff.1 taken
    refine ⟨inside ++ ['"'], by simp, quote ▸ .literal spells.inside, ?_⟩
    intro depth _ rest _
    rw [if_pos quote, List.append_assoc]
    exact Literal.read_eq_ok_iff.2 ⟨inside, rfl, spells⟩
  · cases taken

theorem flag_local : flag.Local 0 := by
  refine local_of_afterSpace (fun _ _ => rfl) ?_
  intro depth c tail b rest taken
  split at taken
  · next letter =>
    obtain ⟨rfl, rfl⟩ := meaning_eq_ok_iff.1 taken
    refine ⟨_, rfl, letter ▸ .true, fun depth _ rest _ => ?_⟩
    rw [if_pos letter]
    exact meaning_eq_ok_iff.2 ⟨rfl, rfl⟩
  · split at taken
    · next notTrue letter =>
      obtain ⟨rfl, rfl⟩ := meaning_eq_ok_iff.1 taken
      refine ⟨_, rfl, letter ▸ .false, fun depth _ rest _ => ?_⟩
      rw [if_neg notTrue, if_pos letter]
      exact meaning_eq_ok_iff.2 ⟨rfl, rfl⟩
    · cases taken

theorem natural_local : natural.Local 0 := by
  refine local_of_afterSpace (fun _ _ => rfl) ?_
  intro depth c tail m rest taken
  split at taken
  · -- No natural number has a minus sign, zero included.
    obtain ⟨n, inRange, read, positive, -⟩ := narrow_eq_ok_iff.1 taken
    have below := (Numeral.read_eq_integer read).1 rfl
    omega
  · next notMinus =>
    split at taken
    · next digit =>
      obtain ⟨n, inRange, read, positive, rfl⟩ := narrow_eq_ok_iff.1 taken
      obtain ⟨-, whole, same, isWhole, reads⟩ := Numeral.read_eq_integer read
      obtain ⟨d, ds, rfl, -⟩ := isDigit_of_whole isWhole
      obtain ⟨rfl, rfl⟩ := List.cons.inj same
      have unsigned : Numeral.Unsigned (c :: ds) := ⟨c :: ds, [], [], [], by simp, isWhole, .none, .none⟩
      refine ⟨ds, rfl, .numeral unsigned, ?_⟩
      intro depth _ rest ends
      rw [if_neg notMinus, if_pos digit]
      exact narrow_eq_ok_iff.2 ⟨n, inRange, reads rest ends, positive, rfl⟩
    · cases taken

theorem readInstant_eq_ok_iff {depth : Nat} {s rest : List Char} {t : Instant} :
    readInstant depth s = .ok (t, rest) ↔
      ∃ told, readText depth s = .ok (told, rest) ∧ DateText.parse told = .ok t := by
  unfold readInstant
  cases readText depth s with
  | error fault => simp
  | ok p =>
    obtain ⟨told, after⟩ := p
    cases parsed : DateText.parse told with
    | error reason => simp [parsed]
    | ok t' =>
      simp only [parsed, Except.ok.injEq, Prod.mk.injEq]
      constructor
      · rintro ⟨rfl, rfl⟩
        exact ⟨told, ⟨rfl, rfl⟩, parsed⟩
      · rintro ⟨told', ⟨rfl, rfl⟩, parsed'⟩
        rw [parsed] at parsed'
        exact ⟨Except.ok.inj parsed', rfl⟩

theorem instant_local : instant.Local 0 := by
  intro depth s t rest read
  obtain ⟨told, read, parsed⟩ := readInstant_eq_ok_iff.1 read
  obtain ⟨blanks, t', rfl, hb, wellFormed, reads⟩ := text_local depth s told rest read
  refine ⟨blanks, t', rfl, hb, wellFormed, ?_⟩
  intro depth room blanks hb rest ends
  exact readInstant_eq_ok_iff.2 ⟨told, reads depth room blanks hb rest ends, parsed⟩

/-! ## Data that may be absent -/

theorem optional_local (h : shape.Local height) : (optional shape).Local height := by
  intro depth s a? rest read
  rcases readOptional_eq_ok_iff.1 read with ⟨null, rfl⟩ | ⟨notNull, a, taken, rfl⟩
  · obtain ⟨blanks, split, hb⟩ := exists_space s
    refine ⟨blanks, ['n', 'u', 'l', 'l'], by rw [split, null]; rfl, hb, .null, ?_⟩
    intro depth _ blanks hb rest _
    refine readOptional_eq_ok_iff.2 (.inl ⟨?_, rfl⟩)
    rw [List.append_assoc]
    exact WellFormed.null.dropSpace hb rest
  · obtain ⟨blanks, t, rfl, hb, wellFormed, reads⟩ := h depth s a rest taken
    refine ⟨blanks, t, rfl, hb, wellFormed, ?_⟩
    intro depth room blanks hb' rest ends
    refine readOptional_eq_ok_iff.2 (.inr ⟨?_, a, reads depth room blanks hb' rest ends, rfl⟩)
    -- The text begins with the same character wherever it stands.
    rw [wellFormed.dropSpace hb] at notNull
    rw [List.append_assoc, wellFormed.dropSpace hb']
    obtain ⟨c, t, rfl, -⟩ := wellFormed.starts
    intro tail begins
    exact notNull _ (by rw [List.cons_append, (List.cons.inj begins).1])

end Shape

end Courier.Json
