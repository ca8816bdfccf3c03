import Courier.Proofs.Json.Passing

set_option autoImplicit false

/-! # Texts and what spells them

A literal is read if it spells a text, and gives that text (`Literal.read_eq_ok_iff`). Of a literal that is
well formed it is known where reading would stop, so one that spells nothing is not read at all
(`Literal.read_inside_iff`).
-/

namespace Courier.Json

namespace Literal

/-! ## Escapes -/

theorem readUnit_eq_ok_iff {s rest : List Char} {n : Nat} :
    readUnit s = .ok (n, rest) ↔
      ∃ a b c d, s = a :: b :: c :: d :: rest ∧ hexUnit? a b c d = some n := by
  constructor
  · intro h
    unfold readUnit at h
    split at h
    · split at h
      · next number =>
        obtain ⟨rfl, rfl⟩ := Prod.mk.inj (Except.ok.inj h)
        exact ⟨_, _, _, _, rfl, number⟩
      · cases h
    · cases h
  · rintro ⟨a, b, c, d, rfl, number⟩
    exact readUnit_number number rest

/-- What an escape is, from after its backslash, and the character that it gives. -/
inductive Escape : List Char → Char → Prop where
  | short {letter c : Char} (meant : shortEscape? letter = some c) : Escape [letter] c
  | unit {a b c d : Char} {n : Nat} (number : hexUnit? a b c d = some n)
      (whole : isLeading n = false ∧ isTrailing n = false) : Escape ['u', a, b, c, d] (Char.ofNat n)
  | pair {a b c d a' b' c' d' : Char} {m n : Nat} (first : hexUnit? a b c d = some m)
      (second : hexUnit? a' b' c' d' = some n) (leading : isLeading m = true)
      (trailing : isTrailing n = true) :
      Escape ['u', a, b, c, d, '\\', 'u', a', b', c', d'] (combine m n)

theorem readSecond_eq_ok {s rest : List Char} {n : Nat} (h : readSecond s = .ok (n, rest)) :
    ∃ tail, s = '\\' :: 'u' :: tail ∧ readUnit tail = .ok (n, rest) := by
  unfold readSecond at h
  split at h
  · cases h
  · split at h
    · next escape =>
      split at h
      · cases h
      · split at h
        · next u tail number => exact ⟨tail, by rw [escape, number], h⟩
        · cases h
    · cases h

theorem escape_of_readCode {s rest : List Char} {c : Char} (h : readCode s = .ok (c, rest)) :
    ∃ e, s = e ++ rest ∧ Escape ('u' :: e) c := by
  unfold readCode at h
  split at h
  · cases h
  · next m tail first =>
    obtain ⟨a, b, c', d, rfl, number⟩ := readUnit_eq_ok_iff.1 first
    split at h
    · cases h
    · next notTrailing =>
      split at h
      · next leading =>
        split at h
        · cases h
        · next n after second =>
          obtain ⟨tail, rfl, second⟩ := readSecond_eq_ok second
          obtain ⟨a', b', c'', d', rfl, number'⟩ := readUnit_eq_ok_iff.1 second
          split at h
          · next trailing =>
            obtain ⟨rfl, rfl⟩ := Prod.mk.inj (Except.ok.inj h)
            exact ⟨_, rfl, .pair number number' leading trailing⟩
          · cases h
      · next notLeading =>
        obtain ⟨rfl, rfl⟩ := Prod.mk.inj (Except.ok.inj h)
        exact ⟨_, rfl, .unit number ⟨by simpa using notLeading, by simpa using notTrailing⟩⟩

theorem escape_of_readEscape {s rest : List Char} {c : Char} (h : readEscape s = .ok (c, rest)) :
    ∃ e, s = e ++ rest ∧ Escape e c := by
  unfold readEscape at h
  split at h
  · cases h
  · split at h
    · next number =>
      obtain ⟨e, rfl, escape⟩ := escape_of_readCode h
      exact ⟨_, by rw [number]; rfl, escape⟩
    · split at h
      · next meant =>
        obtain ⟨rfl, rfl⟩ := Prod.mk.inj (Except.ok.inj h)
        exact ⟨_, rfl, .short meant⟩
      · cases h

theorem readEscape_append {e : List Char} {c : Char} (h : Escape e c) (rest : List Char) :
    readEscape (e ++ rest) = .ok (c, rest) := by
  cases h with
  | short meant => simp [readEscape, ne_of_shortEscape? meant, meant]
  | unit number whole => simp [readEscape, readCode, readUnit_number number, whole]
  | @pair a b c d a' b' c' d' m n first second leading trailing =>
    have notTrailing : isTrailing m = false := by
      simp only [isLeading, isTrailing, Bool.and_eq_true, decide_eq_true_eq, Bool.and_eq_false_iff,
        decide_eq_false_iff_not] at leading ⊢
      omega
    simp [readEscape, readCode, readSecond, readUnit_number first, readUnit_number second, notTrailing,
      leading, trailing]

/-! ## Texts -/

theorem Spells.escaped {e s cs : List Char} {c : Char} (h : Escape e c) (more : Spells s cs) :
    Spells ('\\' :: (e ++ s)) (c :: cs) := by
  cases h with
  | short meant => exact .short meant more
  | unit number whole => exact .unit number whole more
  | pair first second leading trailing => exact .pair first second leading trailing more

theorem Spells.inside {s cs : List Char} (h : Spells s cs) : Inside s := by
  induction h with
  | nil => exact .nil
  | plain notQuote notEscape notControl _ ih => exact .plain notQuote notEscape notControl ih
  | short meant _ ih => exact .short meant ih
  | unit number _ _ ih => exact .unit number ih
  | pair first second _ _ _ ih => exact .unit first (.unit second ih)

theorem readFrom_spells {s cs : List Char} (h : Spells s cs) (acc rest : List Char) :
    readFrom acc (s ++ '"' :: rest) = .ok (String.ofList (acc.reverse ++ cs), rest) := by
  -- One character after the other goes to those that have been read.
  have next : ∀ (acc cs : List Char) (c : Char), (c :: acc).reverse ++ cs = acc.reverse ++ c :: cs := by simp
  have escaped : ∀ {e s : List Char} {c : Char} (acc : List Char), Escape e c →
      readFrom acc ('\\' :: (e ++ s) ++ '"' :: rest) = readFrom (c :: acc) (s ++ '"' :: rest) := by
    intro e s c acc h
    rw [List.cons_append, List.append_assoc]
    exact readFrom_escaped (readEscape_append h _)
  induction h generalizing acc with
  | nil => simp [readFrom_quote]
  | plain notQuote notEscape notControl _ ih =>
    rw [List.cons_append, readFrom_plain notQuote notEscape notControl, ih, next]
  | @short letter c s cs meant _ ih => exact (escaped acc (.short meant)).trans (by rw [ih, next])
  | @unit a b c d n s cs number whole _ ih => exact (escaped acc (.unit number whole)).trans (by rw [ih, next])
  | @pair a b c d a' b' c' d' m n s cs first second leading trailing _ ih =>
    exact (escaped acc (.pair first second leading trailing)).trans (by rw [ih, next])

theorem spells_of_readFrom {acc s rest : List Char} {name : String}
    (h : readFrom acc s = .ok (name, rest)) :
    ∃ inside cs, s = inside ++ '"' :: rest ∧ Spells inside cs ∧ name.toList = acc.reverse ++ cs := by
  fun_induction readFrom acc s with
  | case1 => cases h
  | case2 acc tail =>
    obtain ⟨rfl, rfl⟩ := Prod.mk.inj (Except.ok.inj h)
    exact ⟨[], [], rfl, .nil, by simp⟩
  | case3 => cases h
  | case4 acc tail c after escape shorter notQuote ih =>
    obtain ⟨inside, cs, rfl, spells, told⟩ := ih h
    obtain ⟨e, rfl, given⟩ := escape_of_readEscape escape
    exact ⟨'\\' :: (e ++ inside), c :: cs, by simp, spells.escaped given, by simp [told]⟩
  | case5 => cases h
  | case6 acc c tail notQuote notEscape notControl ih =>
    obtain ⟨inside, cs, rfl, spells, told⟩ := ih h
    exact ⟨c :: inside, c :: cs, rfl, .plain notQuote notEscape (Nat.not_lt.1 notControl) spells, by simp [told]⟩

/-- A text is read from what spells it, up to the quote after it. -/
theorem read_eq_ok_iff {s rest : List Char} {name : String} :
    read s = .ok (name, rest) ↔ ∃ inside, s = inside ++ '"' :: rest ∧ Spells inside name.toList := by
  constructor
  · intro h
    obtain ⟨inside, cs, rfl, spells, told⟩ := spells_of_readFrom h
    rw [List.reverse_nil, List.nil_append] at told
    exact ⟨inside, rfl, told ▸ spells⟩
  · rintro ⟨inside, rfl, spells⟩
    rw [read, readFrom_spells spells]
    simp

/-- A literal that is well formed is read to its end, or not at all. -/
theorem read_inside_iff {inside rest after : List Char} {name : String} (h : Inside inside) :
    read (inside ++ '"' :: rest) = .ok (name, after) ↔ after = rest ∧ Spells inside name.toList := by
  rw [read_eq_ok_iff]
  constructor
  · rintro ⟨inside', same, spells⟩
    -- Both texts are passed over, and passing over stops at one place.
    have stops := skip_inside h rest
    rw [same, skip_inside spells.inside] at stops
    obtain rfl : after = rest := Except.ok.inj stops
    obtain rfl : inside = inside' := List.append_cancel_right same
    exact ⟨rfl, spells⟩
  · rintro ⟨rfl, spells⟩
    exact ⟨inside, rfl, spells⟩

theorem spells_of_read {inside : List Char} {name : String}
    (h : read (inside ++ ['"']) = .ok (name, [])) : Spells inside name.toList := by
  obtain ⟨inside', same, spells⟩ := read_eq_ok_iff.1 h
  rwa [List.append_cancel_right same]

end Literal

/-- A member is that of the name that is read from it. -/
theorem Member.isEntry_of_read {m : Member} {name : String} (spaced : m.Spaced)
    (read : Literal.read (m.name ++ ['"']) = .ok (name, [])) (wellFormed : WellFormed m.item.value) :
    m.IsEntry ⟨some name, String.ofList m.item.value⟩ where
  spaced := spaced
  inside := (Literal.spells_of_read read).inside
  name other := by
    constructor
    · intro same
      obtain rfl := Option.some.inj same
      exact Literal.spells_of_read read
    · intro spells
      have told : Literal.read (m.name ++ ['"']) = .ok (other, []) :=
        Literal.read_eq_ok_iff.2 ⟨m.name, rfl, spells⟩
      rw [read] at told
      exact congrArg some (Prod.mk.inj (Except.ok.inj told)).1
  wellFormed := wellFormed
  value := String.toList_ofList

end Courier.Json
