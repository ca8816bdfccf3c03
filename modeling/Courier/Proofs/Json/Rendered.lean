import Courier.Json.Literal.Lemmas
import Courier.Proofs.Json.Literal
import Courier.Proofs.Json.Numeral
import Courier.Proofs.Json.Writer
import Courier.Proofs.Lists

set_option autoImplicit false

/-! # What is written is well formed

Whatever a value is, and in both layouts, its text is that of a value by the grammar (`Tree.wellFormed_render`),
a double with a point or an exponent included. What is written for an object is the text of an object with these
members, in their order (`Tree.objectText_render`).
-/

namespace Courier

/-- A double is written with digits that are not all zeros, or without a power of ten. -/
theorem Binary64.shortest_coefficient (x : Binary64) :
    x.shortest.coefficient ≠ 0 ∨ x.shortest.exponent = 0 := by
  have grid : ∀ {exponent : Int} {d : Decimal}, x.onGrid exponent = some d → d.coefficient ≠ 0 := by
    intro exponent d found
    unfold onGrid at found
    simp only [Bool.and_eq_true, bne_iff_ne, ne_eq] at found
    split at found
    · next both =>
      obtain rfl := Option.some.inj found
      simp only
      split
      · exact Nat.succ_ne_zero _
      · exact both.1.1
    · split at found
      · next low =>
        obtain rfl := Option.some.inj found
        exact low.1
      · split at found
        · obtain rfl := Option.some.inj found
          exact Nat.succ_ne_zero _
        · cases found
  simp only [shortest]
  cases found : (List.range 24).findSome? fun (n : Nat) => x.onGrid (x.coarseExponent - (n : Int)) with
  | none => exact .inr rfl
  | some d =>
    obtain ⟨n, -, reads⟩ := List.exists_of_findSome?_eq_some found
    exact .inl (grid reads)

namespace Json

/-! ## Texts -/

namespace Literal

/-- What is written between the quotes spells the text. -/
theorem spells_flatMap_escape (s : String) : Spells (s.toList.flatMap escape) s.toList :=
  spells_of_read (read_flatMap_escape s [])

end Literal

/-! ## Numbers -/

namespace Numeral

theorem digits_digits (n : Nat) : Digits (Decimal.digits n) :=
  ⟨Decimal.digits_ne_nil n, fun _ => Decimal.isDigit_of_mem_digits⟩

theorem Whole.unsigned {s : List Char} (h : Whole s) : Unsigned s :=
  ⟨s, [], [], [], by simp, h, .none, .none⟩

/-- Digits behind a point make a fraction, if there are any. -/
theorem Whole.unsigned_fraction {s ds : List Char} (h : Whole s) (digits : Digits ds) :
    Unsigned (s ++ '.' :: ds) :=
  ⟨s, ds, '.' :: ds, [], by simp, h, .some digits, .none⟩

theorem Whole.take {s : List Char} (h : Whole s) {count : Nat} (some : 0 < count) : Whole (s.take count) := by
  obtain ⟨count, rfl⟩ : ∃ k, count = k + 1 := ⟨count - 1, by omega⟩
  rw [Nat.add_one]
  cases h with
  | zero => rw [List.take_succ_cons, List.take_nil]; exact .zero
  | digits digit notZero more =>
    rw [List.take_succ_cons]
    exact .digits digit notZero fun d hd => more d (List.mem_of_mem_take hd)

/-- Digits after an integer part belong to it, unless that is a zero. -/
theorem Whole.append {s ds : List Char} (h : Whole s) (notZero : s ≠ ['0'])
    (digits : ∀ d ∈ ds, d.isDigit = true) : Whole (s ++ ds) := by
  cases h with
  | zero => exact absurd rfl notZero
  | digits digit first more =>
    refine .digits digit first fun d hd => ?_
    rcases List.mem_append.1 hd with hd | hd
    · exact more d hd
    · exact digits d hd

theorem digits_ne_zero {n : Nat} (h : n ≠ 0) : Decimal.digits n ≠ ['0'] := by
  intro zero
  exact Decimal.digits_head_ne_zero (Nat.pos_of_ne_zero h) (by rw [zero]; rfl)

theorem unsigned_decimalText {d : Binary64.Decimal} (h : d.coefficient ≠ 0 ∨ d.exponent = 0) :
    Unsigned (Number.decimalText d) := by
  have whole := whole_digits d.coefficient
  have digits := digits_digits d.coefficient
  have zero : Digits ['0'] := ⟨by simp, by simp⟩
  unfold Number.decimalText
  simp only
  split
  · split
    · next up =>
      -- Zeros come after the digits, and after a zero only none.
      have zeros : Whole (Decimal.digits d.coefficient ++ List.replicate d.exponent.toNat '0') := by
        rcases h with notZero | none
        · refine whole.append (digits_ne_zero notZero) fun c hc => ?_
          rw [List.eq_of_mem_replicate hc]
          rfl
        · rw [none, Int.toNat_zero, List.replicate_zero, List.append_nil]
          exact whole
      exact zeros.unsigned_fraction zero
    · next down =>
      split
      · refine (whole.take (by omega)).unsigned_fraction ⟨?_, fun c hc => digits.2 c (List.mem_of_mem_drop hc)⟩
        rw [Ne, List.drop_eq_nil_iff]
        omega
      · refine @Whole.unsigned_fraction ['0'] (List.replicate _ '0' ++ _) .zero
          ⟨by simp [digits.1], fun c hc => ?_⟩
        rcases List.mem_append.1 hc with hc | hc
        · rw [List.eq_of_mem_replicate hc]
          rfl
        · exact digits.2 c hc
  · -- One digit, perhaps a fraction, and the exponent with its sign.
    have fraction : ∃ ds, Fraction ds (if (Decimal.digits d.coefficient).length = 1 then []
        else '.' :: (Decimal.digits d.coefficient).drop 1) := by
      split
      · exact ⟨[], .none⟩
      · next more =>
        have some : 0 < (Decimal.digits d.coefficient).length := List.length_pos_iff.2 digits.1
        refine ⟨_, .some ⟨?_, fun c hc => digits.2 c (List.mem_of_mem_drop hc)⟩⟩
        rw [Ne, List.drop_eq_nil_iff]
        omega
    obtain ⟨ds, fraction⟩ := fraction
    have signed : ∀ leading : Int, Exponent ('e' :: (if leading < 0 then '-' else '+')
        :: Decimal.digits leading.natAbs) := by
      intro leading
      refine @Exponent.some 'e' [if leading < 0 then '-' else '+'] _ (.inl rfl) ?_ (digits_digits _)
      split
      · exact .inr (.inr rfl)
      · exact .inr (.inl rfl)
    exact ⟨_, ds, _, _, List.append_assoc .., whole.take Nat.one_pos, fraction, signed _⟩

end Numeral

theorem wellFormed_number (n : Number) : WellFormed n.text := by
  cases n with
  | integer n _ =>
    have unsigned := (Numeral.whole_digits n.natAbs).unsigned
    show WellFormed (Number.integerText n)
    unfold Number.integerText
    split
    · exact .negative unsigned
    · exact .numeral unsigned
  | double x =>
    have unsigned : Numeral.Unsigned (if x.significand = 0 then ['0', '.', '0']
        else Number.decimalText x.shortest) := by
      split
      · exact @Numeral.Whole.unsigned_fraction ['0'] ['0'] .zero ⟨by simp, by simp⟩
      · exact Numeral.unsigned_decimalText x.shortest_coefficient
    show WellFormed (Number.doubleText x)
    unfold Number.doubleText
    simp only
    split
    · exact .negative unsigned
    · exact .numeral unsigned

/-! ## What a layout puts around parts -/

section Parts

variable {β γ : Type} {text : γ → List Char} {written : β → List Char} {R : γ → β → Prop}

/-- The parts after the first one, each with the new line before it, and the last one with what stands before
the closing bracket. What is left over comes after the part before them. -/
theorem exists_parts {newline last : List Char} (blank : Blanks last) (xs : List β)
    (part : ∀ x ∈ xs, ∀ after, Blanks after → ∃ g, text g = newline ++ (written x ++ after) ∧ R g x) :
    ∃ after gs, following newline (xs.map written) ++ last = after ++ moreParts (gs.map text) ∧
      Blanks after ∧ List.Forall₂ R gs xs := by
  induction xs with
  | nil => exact ⟨last, [], by simp [following], blank, .nil⟩
  | cons x xs ih =>
    obtain ⟨first, others⟩ := List.forall_mem_cons.1 part
    obtain ⟨after, gs, split, ha, all⟩ := ih others
    obtain ⟨g, spelled, told⟩ := first after ha
    refine ⟨[], g :: gs, ?_, blanks_nil, .cons told all⟩
    rw [List.map_cons, following_cons, List.map_cons, moreParts_cons, spelled]
    simp [split]

/-- What is written between brackets is parted by commas. -/
theorem parted_enclose {layout : Layout} (sound : layout.Sound) (depth : Nat) (first last : Char) (xs : List β)
    (part : ∀ x ∈ xs, ∀ after, Blanks after →
      ∃ g, text g = layout.newline (depth + 1) ++ (written x ++ after) ∧ R g x) :
    ∃ inside gs, layout.enclose depth first last (xs.map written) = first :: (inside ++ [last]) ∧
      Parted (gs.map text) inside ∧ List.Forall₂ R gs xs := by
  cases xs with
  | nil => exact ⟨[], [], rfl, blanks_nil, .nil⟩
  | cons x xs =>
    obtain ⟨here, others⟩ := List.forall_mem_cons.1 part
    obtain ⟨after, gs, split, ha, all⟩ := exists_parts (sound.newline depth) xs others
    obtain ⟨g, spelled, told⟩ := here after ha
    refine ⟨_, g :: gs, ?_, rfl, .cons told all⟩
    have enclosed := enclose_cons_append layout depth first last (written x) (xs.map written) []
    rw [List.append_nil] at enclosed
    rw [List.map_cons, enclosed, spelled]
    have split' := congrArg (· ++ [last]) split
    simp only [List.append_assoc] at split' ⊢
    rw [split']

end Parts

/-! ## Values -/

namespace Tree

def entry (layout : Layout) (depth : Nat) (member : String × Value) : Entry :=
  ⟨some member.1, String.ofList (member.2.render layout depth)⟩

variable {layout : Layout} (sound : layout.Sound)

include sound

theorem isEntry_renderMember (depth : Nat) {p : String × Value} (wellFormed : WellFormed (p.2.render layout depth))
    {before after : List Char} (hb : Blanks before) (ha : Blanks after) :
    ∃ m : Member, m.text = before ++ (renderMember layout depth p ++ after) ∧ m.IsEntry (entry layout depth p) := by
  obtain ⟨blanks, colon, blank⟩ := sound.colon
  refine ⟨⟨before, p.1.toList.flatMap escape, [], ⟨blanks, p.2.render layout depth, after⟩⟩, ?_, ?_⟩
  · simp [Member.text, Item.text, renderMember, textLiteral, colon]
  · exact Member.isEntry_of_read ⟨hb, blanks_nil, blank, ha⟩ (Literal.read_flatMap_escape p.1 []) wellFormed

theorem wellFormed_render (depth : Nat) (v : Value) : WellFormed (v.render layout depth) := by
  match v with
  | .null => exact .null
  | .boolean true => exact .true
  | .boolean false => exact .false
  | .number n => exact wellFormed_number n
  | .string s => exact .literal (Literal.spells_flatMap_escape s).inside
  | .array items =>
    have part : ∀ item ∈ items, ∀ after, Blanks after →
        ∃ i : Item, i.text = layout.newline (depth + 1) ++ (item.render layout (depth + 1) ++ after) ∧
          i.Spaced ∧ WellFormed i.value :=
      fun item mem after ha => ⟨⟨layout.newline (depth + 1), _, after⟩, rfl, ⟨sound.newline (depth + 1), ha⟩,
        wellFormed_render (depth + 1) item⟩
    obtain ⟨inside, is, enclosed, parted, all⟩ := parted_enclose sound depth '[' ']' items part
    rw [render_array, enclosed]
    exact .array parted (forall_mem_of_forall₂ all fun _ _ told => told.1)
      (forall_mem_of_forall₂ all fun _ _ told => told.2)
  | .object members =>
    have part : ∀ p ∈ members, ∀ after, Blanks after →
        ∃ m : Member, m.text = layout.newline (depth + 1) ++ (renderMember layout (depth + 1) p ++ after) ∧
          m.IsEntry (entry layout (depth + 1) p) :=
      fun p mem after ha => isEntry_renderMember sound (depth + 1) (wellFormed_render (depth + 1) p.2)
        (sound.newline (depth + 1)) ha
    obtain ⟨inside, ms, enclosed, parted, all⟩ := parted_enclose sound depth '{' '}' members part
    rw [render_object, enclosed]
    exact .object parted (forall_mem_of_forall₂ all fun _ _ told => told.spaced)
      (forall_mem_of_forall₂ all fun _ _ told => told.inside)
      (forall_mem_of_forall₂ all fun _ _ told => told.wellFormed)
termination_by sizeOf v
decreasing_by
  · have smaller := List.sizeOf_lt_of_mem mem
    simp only [Tree.array.sizeOf_spec]
    omega
  · have smaller := List.sizeOf_lt_of_mem mem
    obtain ⟨name, item⟩ := p
    simp only [Tree.object.sizeOf_spec, Prod.mk.sizeOf_spec] at smaller ⊢
    omega

/-- What is written for an object is the text of an object with the same members. -/
theorem objectText_render (members : List (String × Value)) :
    ObjectText (members.map (entry layout 1)) (String.ofList ((Tree.object members).render layout 0)) := by
  obtain ⟨inside, ms, enclosed, parted, all⟩ := parted_enclose sound 0 '{' '}' members
    fun p _ after ha => isEntry_renderMember sound 1 (p := p) (wellFormed_render sound 1 p.2) (sound.newline 1) ha
  refine ⟨[], inside, [], ms, ?_, blanks_nil, blanks_nil, parted, ?_⟩
  · rw [String.toList_ofList, render_object, enclosed]
    rfl
  · exact List.forall₂_map_right_iff.2 all

end Tree

end Json

end Courier
