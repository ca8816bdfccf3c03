import Courier.Http.Header
import Courier.Proofs.Text.Decimal
import Mathlib.Data.List.DropRight

set_option autoImplicit false

/-! # Headers by name and by character

A name is looked up without regard to the case of its letters, so of headers whose names differ even then
each is found under every spelling of its name (`Headers.get?_of_mem`). The characters of names and values
are told apart here: a token is visible, what is visible is plain, and what is plain may stand in a value
and is ASCII. A value loses the blanks at its ends once, and nothing more after that.
-/

namespace Courier

/-- A list is cut where the first element stands that is not like those before it. -/
theorem span_append_cons {α : Type} {p : α → Bool} {before : List α} (like : ∀ a ∈ before, p a = true)
    {mark : α} (unlike : p mark = false) (rest : List α) :
    (before ++ mark :: rest).span p = (before, mark :: rest) := by
  rw [List.span_eq_takeWhile_dropWhile, List.takeWhile_append_of_pos like,
    List.dropWhile_append_of_pos like, List.takeWhile_cons_of_neg (by simp [unlike]),
    List.dropWhile_cons_of_neg (by simp [unlike]), List.append_nil]

namespace Headers

/-! ## Characters -/

theorem isValueChar_of_isPlain {c : Char} (h : isPlain c = true) : isValueChar c = true := by
  unfold isPlain isVisible at h
  unfold isValueChar
  simp only [Bool.or_eq_true, Bool.and_eq_true, beq_iff_eq, bne_iff_ne, decide_eq_true_eq] at h ⊢
  rcases h with (rfl | rfl) | h
  · exact .inr (by decide)
  · exact .inl rfl
  · exact .inr (by omega)

theorem isPlain_iff {c : Char} : isPlain c = true ↔ c = ' ' ∨ c = '\t' ∨ ('!' ≤ c ∧ c ≤ '~') := by
  unfold isPlain isVisible
  simp only [Bool.or_eq_true, Bool.and_eq_true, beq_iff_eq, decide_eq_true_eq, or_assoc]
  exact Iff.rfl

theorem isPlain_of_isVisible {c : Char} (h : isVisible c = true) : isPlain c = true := by
  unfold isPlain
  rw [h, Bool.or_true]

theorem not_isSpace_of_isVisible {c : Char} (h : isVisible c = true) : isSpace c = false := by
  unfold isSpace
  simp only [Bool.or_eq_false_iff, beq_eq_false_iff_ne]
  constructor
  · rintro rfl
    exact absurd h (by decide)
  · rintro rfl
    exact absurd h (by decide)

theorem isVisible_of_isDigit {c : Char} (h : c.isDigit = true) : isVisible c = true := by
  have bounds := Decimal.isDigit_bounds h
  unfold isVisible
  simp only [Bool.and_eq_true, decide_eq_true_eq]
  omega

theorem isVisible_of_isTokenChar {c : Char} (h : isTokenChar c = true) : isVisible c = true := by
  unfold isTokenChar at h
  rw [Bool.or_eq_true] at h
  -- A letter is a capital, a small one or a digit, and each kind lies between its first and its last.
  have between {first last : UInt32} (low : first ≤ c.val) (high : c.val ≤ last)
      (room : 0x21 ≤ first.toNat ∧ last.toNat ≤ 0x7E) : isVisible c = true := by
    rw [UInt32.le_iff_toNat_le] at low high
    have code : c.toNat = c.val.toNat := rfl
    unfold isVisible
    simp only [Bool.and_eq_true, decide_eq_true_eq]
    omega
  rcases h with letter | mark
  · rcases Bool.or_eq_true_iff.1 (show (c.isUpper || c.isLower || c.isDigit) = true from letter)
      with letter | digit
    · rcases Bool.or_eq_true_iff.1 letter with upper | lower
      · obtain ⟨low, high⟩ := of_decide_eq_true upper
        exact between low high (by decide)
      · obtain ⟨low, high⟩ := Bool.and_eq_true_iff.1 lower
        exact between (of_decide_eq_true low) (of_decide_eq_true high) (by decide)
    · exact isVisible_of_isDigit digit
  · have all : ['!', '#', '$', '%', '&', '\x27', '*', '+', '-', '.', '^', '_', '\x60', '|', '~'].all
        isVisible = true := by decide
    exact List.all_eq_true.1 all c (by simpa using mark)

theorem lt_of_isPlain {c : Char} (h : isPlain c = true) : c.toNat < 0x7F := by
  unfold isPlain isVisible at h
  simp only [Bool.or_eq_true, Bool.and_eq_true, beq_iff_eq, decide_eq_true_eq] at h
  rcases h with (rfl | rfl) | h
  · decide
  · decide
  · omega

def IsPlainHeader (header : String × String) : Prop :=
  isName header.1 = true ∧ header.2.toList.all isPlain = true

instance (header : String × String) : Decidable (IsPlainHeader header) := by
  unfold IsPlainHeader; infer_instance

theorem isValue_of_plain {value : String} (h : value.toList.all isPlain = true) : isValue value = true := by
  unfold isValue
  rw [List.all_eq_true] at h ⊢
  exact fun c hc => isValueChar_of_isPlain (h c hc)

/-! ## Blanks at the ends of a value -/

theorem dropWhile_isSpace_cons {c : Char} (h : isVisible c = true) (s : List Char) :
    (c :: s).dropWhile isSpace = c :: s :=
  List.dropWhile_cons_of_neg (by simp [not_isSpace_of_isVisible h])

/-- A text with a visible character at each end loses nothing. -/
theorem trim_visible {first last : Char} (hfirst : isVisible first = true) (hlast : isVisible last = true)
    (s : List Char) : trim (first :: (s ++ [last])) = first :: (s ++ [last]) := by
  have reversed : (first :: (s ++ [last])).reverse = last :: (s.reverse ++ [first]) := by simp
  unfold trim
  rw [dropWhile_isSpace_cons hfirst, reversed, dropWhile_isSpace_cons hlast, ← reversed,
    List.reverse_reverse]

theorem trim_of_all_visible {s : List Char} (h : ∀ c ∈ s, isVisible c = true) : trim s = s := by
  cases s with
  | nil => rfl
  | cons first s =>
    have hfirst := h first (by simp)
    -- A single character is both ends of the text.
    rcases List.eq_nil_or_concat' s with rfl | ⟨s, last, rfl⟩
    · unfold trim
      rw [dropWhile_isSpace_cons hfirst, List.reverse_singleton, dropWhile_isSpace_cons hfirst]
      rfl
    · exact trim_visible hfirst (h last (by simp)) s

/-- A header arrives with a small name, and with its value if that has no blanks at its ends. -/
theorem arrived_of_trim {name small value : String}
    (lower : String.ofList (name.toList.map Char.toLower) = small)
    (trimmed : trim value.toList = value.toList) : arrived (name, value) = (small, value) := by
  unfold arrived
  rw [lower, trimmed, String.ofList_toList]

theorem trim_eq_rdropWhile (s : List Char) : trim s = (s.dropWhile isSpace).rdropWhile isSpace := rfl

theorem mem_of_mem_trim {c : Char} {s : List Char} (h : c ∈ trim s) : c ∈ s := by
  rw [trim_eq_rdropWhile] at h
  exact (List.dropWhile_suffix isSpace).subset ((List.rdropWhile_prefix isSpace _).subset h)

theorem trim_trim (s : List Char) : trim (trim s) = trim s := by
  have start : (trim s).dropWhile isSpace = trim s := by
    rw [trim_eq_rdropWhile]
    cases kept : (s.dropWhile isSpace).rdropWhile isSpace with
    | nil => rfl
    | cons c t =>
      -- What is left begins as the text without its first blanks does.
      obtain ⟨lost, whole⟩ := List.rdropWhile_prefix isSpace (s.dropWhile isSpace)
      have visible := List.head?_dropWhile_not isSpace s
      rw [← whole, kept] at visible
      exact List.dropWhile_cons_of_neg (by simpa using visible)
  rw [trim_eq_rdropWhile (trim s), start, trim_eq_rdropWhile s]
  exact List.rdropWhile_idempotent isSpace _

/-! ## Headers by their names -/

theorem sameName_iff {a b : String} :
    sameName a b = true ↔ a.toList.map Char.toLower = b.toList.map Char.toLower := by
  unfold sameName
  rw [beq_iff_eq]

theorem get?_cons (name value : String) (headers : Headers) (wanted : String) :
    get? ((name, value) :: headers) wanted
      = if sameName name wanted then some value else get? headers wanted := by
  unfold get?
  rw [List.find?_cons]
  cases sameName name wanted with
  | true => rfl
  | false => rfl

/-- What is found is the value of a header with the name, and none before it has the name. -/
theorem get?_eq_some_iff {headers : Headers} {wanted value : String} :
    get? headers wanted = some value ↔ ∃ before spelled after, headers = before ++ (spelled, value) :: after ∧
      sameName spelled wanted = true ∧ ∀ header ∈ before, sameName header.1 wanted = false := by
  unfold get?
  rw [Option.map_eq_some_iff]
  constructor
  · rintro ⟨⟨spelled, value⟩, found, rfl⟩
    obtain ⟨same, before, after, split, others⟩ := List.find?_eq_some_iff_append.1 found
    exact ⟨before, spelled, after, split, same, fun header hh => by simpa using others header hh⟩
  · rintro ⟨before, spelled, after, split, same, others⟩
    refine ⟨(spelled, value), List.find?_eq_some_iff_append.2 ⟨same, before, after, split, ?_⟩, rfl⟩
    exact fun header hh => by simp [others header hh]

theorem getAll_nil (wanted : String) : getAll [] wanted = [] := rfl

theorem getAll_cons (name value : String) (headers : Headers) (wanted : String) :
    getAll ((name, value) :: headers) wanted
      = if sameName name wanted then value :: getAll headers wanted else getAll headers wanted := by
  unfold getAll
  rw [List.filter_cons]
  cases sameName name wanted with
  | true => rfl
  | false => rfl

theorem getAll_append (headers headers' : Headers) (wanted : String) :
    getAll (headers ++ headers') wanted = getAll headers wanted ++ getAll headers' wanted := by
  unfold getAll
  rw [List.filter_append, List.map_append]

/-- A header that may be absent is found under its name only, if it is there. -/
theorem getAll_optional {α : Type} (name : String) (value : α → String) (o : Option α) (wanted : String) :
    getAll (o.map fun a => (name, value a)).toList wanted
      = if sameName name wanted then (o.map value).toList else [] := by
  cases o with
  | none => simp [getAll_nil]
  | some a => simp [getAll_cons, getAll_nil]

theorem getAll_eq_nil {headers : Headers} {wanted : String}
    (h : ∀ header ∈ headers, sameName header.1 wanted = false) : getAll headers wanted = [] := by
  unfold getAll
  rw [List.filter_eq_nil_iff.2 fun header hh => by simp [h header hh]]
  rfl

theorem get?_eq_head?_getAll (headers : Headers) (wanted : String) :
    get? headers wanted = (getAll headers wanted).head? := by
  unfold get? getAll
  rw [List.head?_map, List.head?_filter]

theorem get?_append_of_other {first : Headers} {wanted : String} (other : getAll first wanted = [])
    (headers : Headers) : get? (first ++ headers) wanted = get? headers wanted := by
  rw [get?_eq_head?_getAll, getAll_append, other, List.nil_append, ← get?_eq_head?_getAll]

/-- Headers whose names differ in the case of letters only, if at all, hold the same under a name, if those with the
name have the same values. -/
theorem get?_of_alike {wanted : String} {headers headers' : Headers}
    (alike : List.Forall₂ (fun a b => sameName a.1 b.1 = true ∧ (sameName a.1 wanted = true → a.2 = b.2))
      headers headers') : get? headers wanted = get? headers' wanted := by
  induction alike with
  | nil => rfl
  | @cons a b _ _ one others ih =>
    obtain ⟨name, value⟩ := a
    obtain ⟨name', value'⟩ := b
    obtain ⟨names, values⟩ := one
    have same : sameName name wanted = sameName name' wanted := by
      unfold sameName
      rw [sameName_iff.1 names]
    rw [get?_cons, get?_cons, ih, ← same]
    by_cases found : sameName name wanted = true
    · rw [if_pos found, if_pos found]
      exact congrArg some (values found)
    · rw [if_neg found, if_neg found]

theorem get?_congr {a b : String} (same : sameName a b = true) (headers : Headers) :
    get? headers a = get? headers b := by
  have alike (name : String) : sameName name a = sameName name b := by
    unfold sameName
    rw [sameName_iff.1 same]
  unfold get?
  simp only [alike]

theorem get?_eq_none {headers : Headers} {wanted : String}
    (h : ∀ header ∈ headers, sameName header.1 wanted = false) : get? headers wanted = none := by
  rw [get?_eq_head?_getAll, getAll_eq_nil h]
  rfl

/-- Among headers with different names each is found by its own, in any case of letters. -/
theorem get?_of_mem {headers : Headers} (distinct : headers.Pairwise fun a b => sameName a.1 b.1 = false)
    {name value wanted : String} (mem : (name, value) ∈ headers) (same : sameName name wanted = true) :
    get? headers wanted = some value := by
  rw [← get?_congr same]
  induction headers with
  | nil => cases mem
  | cons header headers ih =>
    obtain ⟨others, rest⟩ := List.pairwise_cons.1 distinct
    obtain ⟨first, content⟩ := header
    rw [get?_cons]
    rcases List.mem_cons.1 mem with here | later
    · obtain ⟨rfl, rfl⟩ := Prod.mk.inj here
      rw [if_pos (sameName_iff.2 rfl)]
    · rw [if_neg (by simp [others _ later]), ih rest later]

end Headers

end Courier
