import Courier.Json.Record
import Courier.Payload
import Courier.Proofs.Text.Steps

set_option autoImplicit false

/-! # What has been met when reading succeeds

The pieces that readers are made of, told from their success: which character came first after the blanks,
and which step read the rest. What the loop over the members of an object keeps true from one member to the
next holds at its end (`members_invariant`). Of a whole document it is known that only blanks follow the value
(`Shape.decode_eq_ok_iff`).
-/

namespace Courier.Json

variable {α σ : Type} {s rest : List Char}

/-! ## First characters -/

theorem afterSpace_eq_ok_iff {take : Char → List Char → Scan α} {p : α × List Char} :
    afterSpace take s = .ok p ↔ ∃ c tail, dropSpace s = c :: tail ∧ take c tail = .ok p := by
  unfold afterSpace
  cases dropSpace s with
  | nil => simp
  | cons c tail => simp [and_assoc]

theorem colon_eq_ok_iff : colon s = .ok rest ↔ dropSpace s = ':' :: rest := by
  unfold colon
  cases dropSpace s with
  | nil => simp
  | cons c tail =>
    by_cases same : c = ':'
    · simp [same]
    · simp [same]

theorem memberValue_eq_ok_iff {read : List Char → Scan α} {p : α × List Char} :
    memberValue read s = .ok p ↔ ∃ tail, dropSpace s = ':' :: tail ∧ read tail = .ok p := by
  unfold memberValue
  constructor
  · intro h
    split at h
    · cases h
    · next tail found => exact ⟨tail, colon_eq_ok_iff.1 found, h⟩
  · rintro ⟨tail, found, h⟩
    rw [colon_eq_ok_iff.2 found]
    exact h

/-! ## Keywords -/

theorem keyword_eq_ok_iff {letters : List Char} :
    keyword letters s = .ok rest ↔ s = letters ++ rest := by
  induction letters generalizing s with
  | nil => simp [keyword]
  | cons letter letters ih =>
    cases s with
    | nil => simp [keyword]
    | cons c s =>
      rw [keyword]
      by_cases same : c = letter
      · rw [if_pos same, ih, same, List.cons_append, List.cons.injEq]
        simp
      · rw [if_neg same]
        simp [same]

theorem meaning_eq_ok_iff {letters : List Char} {a b : α} :
    meaning letters a s = .ok (b, rest) ↔ s = letters ++ rest ∧ a = b := by
  unfold meaning
  rw [Except.map_eq_ok_iff]
  simp only [keyword_eq_ok_iff, Prod.mk.injEq]
  constructor
  · rintro ⟨rest', rfl, rfl, rfl⟩
    exact ⟨rfl, rfl⟩
  · rintro ⟨rfl, rfl⟩
    exact ⟨rest, rfl, rfl, rfl⟩

theorem readOptional_eq_ok_iff {read : Reader α} {depth : Nat} {a? : Option α} :
    readOptional read depth s = .ok (a?, rest) ↔
      (dropSpace s = 'n' :: (['u', 'l', 'l'] ++ rest) ∧ a? = none) ∨
      ((∀ tail, dropSpace s ≠ 'n' :: tail) ∧ ∃ a, read depth s = .ok (a, rest) ∧ a? = some a) := by
  have plain : ((read depth s).map fun p => (some p.1, p.2)) = .ok (a?, rest) ↔
      ∃ a, read depth s = .ok (a, rest) ∧ a? = some a := by
    rw [Except.map_eq_ok_iff]
    constructor
    · rintro ⟨⟨a, after⟩, taken, same⟩
      obtain ⟨rfl, rfl⟩ := Prod.mk.inj same
      exact ⟨a, taken, rfl⟩
    · rintro ⟨a, taken, rfl⟩
      exact ⟨(a, rest), taken, rfl⟩
  unfold readOptional
  cases begins : dropSpace s with
  | nil =>
    refine plain.trans ?_
    simp
  | cons c tail =>
    by_cases null : c = 'n'
    · subst null
      simp [meaning_eq_ok_iff, eq_comm (a := a?)]
    · simp only [if_neg null]
      refine plain.trans ?_
      simp [null]

/-! ## Containers -/

theorem enter_eq_ok_iff {content : Nat → List Char → Scan α} {depth : Nat} {p : α × List Char} :
    enter content depth s = .ok p ↔ ∃ inner, depth = inner + 1 ∧ content inner (s.drop 1) = .ok p := by
  cases depth with
  | zero => simp [enter]
  | succ inner => simp [enter]

theorem container_eq_ok_iff {bracket : Char} {expected : String} {content : Nat → List Char → Scan α}
    {depth : Nat} {p : α × List Char} :
    Shape.container bracket expected content depth s = .ok p ↔
      ∃ inner tail, depth = inner + 1 ∧ dropSpace s = bracket :: tail ∧ content inner tail = .ok p := by
  unfold Shape.container
  rw [afterSpace_eq_ok_iff]
  constructor
  · rintro ⟨c, tail, head, taken⟩
    split at taken
    · next same =>
      obtain ⟨inner, rfl, content⟩ := enter_eq_ok_iff.1 taken
      exact ⟨inner, tail, rfl, same ▸ head, content⟩
    · cases taken
  · rintro ⟨inner, tail, rfl, head, content⟩
    refine ⟨bracket, tail, head, ?_⟩
    rw [if_pos rfl]
    exact enter_eq_ok_iff.2 ⟨inner, rfl, content⟩

theorem close_eq_ok_iff {endOf : List Char → Option Cause × List Char} {scan : Scan α} {a : α} :
    close endOf scan = .ok (a, rest) ↔ ∃ tail, scan = .ok (a, tail) ∧ endOf tail = (none, rest) := by
  constructor
  · intro h
    unfold close at h
    split at h
    · next b tail =>
      split at h
      · next closed =>
        obtain ⟨rfl, rfl⟩ := Prod.mk.inj (Except.ok.inj h)
        exact ⟨tail, rfl, closed⟩
      · cases h
    · cases h
    · cases h
  · rintro ⟨tail, rfl, closed⟩
    unfold close
    simp only [closed]

/-! ## Members -/

/-- What each member that is read keeps true holds at the end of an object. -/
theorem members_invariant {member : σ → String → List Char → Scan σ} (holds : σ → Prop)
    (step : ∀ state name s next rest, holds state → member state name s = .ok (next, rest) → holds next)
    {state final : σ} (start : holds state) (h : members member state s = .ok (final, rest)) :
    holds final := by
  have loop : ∀ (fuel : Nat) (first : Bool) (state : σ) (s : List Char), holds state →
      membersFrom member fuel first state s = .ok (final, rest) → holds final := by
    intro fuel
    induction fuel with
    | zero => intro first state s _ h; cases h
    | succ fuel ih =>
      intro first state s held h
      rw [membersFrom] at h
      split at h
      · cases h
      · obtain ⟨rfl, -⟩ := Prod.mk.inj (Except.ok.inj h)
        exact held
      · split at h
        · cases h
        · next read => exact ih false _ _ (step _ _ _ _ _ held read) h
  exact loop _ _ _ _ start h

/-! ## Documents -/

namespace Shape

variable {shape : Shape α} {text : String}

/-- A document is a value and the blanks after it. -/
theorem decode_eq_ok_iff {a : α} :
    shape.decode text = .ok a ↔
      ∃ rest, shape.read nestingLimit text.toList = .ok (a, rest) ∧ dropSpace rest = [] := by
  unfold decode
  rw [Except.mapError_eq_ok_iff]
  unfold readDocument
  cases read : shape.read nestingLimit text.toList with
  | error fault => simp [read]
  | ok p =>
    obtain ⟨b, after⟩ := p
    cases blank : dropSpace after with
    | nil =>
      simp only [read, blank, Except.ok.injEq, Prod.mk.injEq]
      constructor
      · rintro rfl
        exact ⟨after, ⟨rfl, rfl⟩, blank⟩
      · rintro ⟨rest, ⟨same, -⟩, -⟩
        exact same
    | cons c tail =>
      simp only [read, blank, Except.ok.injEq, Prod.mk.injEq]
      constructor
      · intro failed
        cases failed
      · rintro ⟨rest, ⟨-, rfl⟩, none⟩
        rw [none] at blank
        cases blank

theorem decode_eq_malformed (h : ∀ a, shape.decode text ≠ .ok a) :
    ∃ fault, shape.decode text = .error (.malformed fault) := by
  unfold decode at h ⊢
  cases read : readDocument shape.read text with
  | error fault => exact ⟨fault, rfl⟩
  | ok a =>
    rw [read] at h
    exact absurd rfl (h a)

end Shape

end Courier.Json
