import Courier.Proofs.Json.Locality

set_option autoImplicit false

/-! # Members that are read one after the other

What the loop over the members of an object has made of them so far is told by a relation between the members
and the state of the loop (`Follows`): no more than one state goes with the same members, and a member is read
exactly if it takes the relation one member further. Then an object is read to its closing bracket exactly if
the names of its members are texts and some state goes with all of them (`Follows.members_iff`). Records and
tables are read by the same loop.
-/

namespace Courier.Json

variable {σ : Type} {member : σ → String → List Char → Scan σ}

/-- There is a comma for each part after the first one. -/
theorem length_le_moreParts (parts : List (List Char)) : parts.length ≤ (moreParts parts).length := by
  induction parts with
  | nil => simp
  | cons part parts ih =>
    simp only [moreParts_cons, List.length_append, List.length_cons]
    omega

/-- What the loop goes on with ends the member before. -/
theorem endsPart_of_membersFrom {fuel : Nat} {state final : σ} {s after : List Char}
    (h : membersFrom member fuel false state s = .ok (final, after)) : EndsPart s := by
  cases fuel with
  | zero => cases h
  | succ fuel =>
    rw [membersFrom] at h
    -- Only a comma or the closing bracket may come next.
    have mark : ∃ c tail, dropSpace s = c :: tail ∧ (c = ',' ∨ c = '}') := by
      unfold nextName at h
      cases begins : dropSpace s with
      | nil => simp [begins] at h
      | cons c tail =>
        refine ⟨c, tail, rfl, ?_⟩
        by_contra other
        rw [not_or] at other
        simp [begins, other.1, other.2] at h
    obtain ⟨c, tail, begins, mark⟩ := mark
    refine endsPart_of_dropSpace begins ?_
    rcases mark with rfl | rfl <;> decide

theorem memberName_iff {m : Member} {e : Entry} (told : m.IsEntry e) {name? : Option String}
    {rest after : List Char} :
    memberName '"' (m.name ++ '"' :: rest) = .ok (name?, after) ↔
      ∃ name, e.name? = some name ∧ name? = some name ∧ after = rest := by
  unfold memberName
  rw [if_pos rfl, Except.map_eq_ok_iff]
  constructor
  · rintro ⟨⟨name, after'⟩, read, same⟩
    obtain ⟨rfl, rfl⟩ := Prod.mk.inj same
    obtain ⟨rfl, spells⟩ := (Literal.read_inside_iff told.inside).1 read
    exact ⟨name, (told.name name).2 spells, rfl, rfl⟩
  · rintro ⟨name, named, rfl, rfl⟩
    exact ⟨(name, after), (Literal.read_inside_iff told.inside).2 ⟨rfl, (told.name name).1 named⟩, rfl⟩

theorem memberValue_gap {α : Type} (read : List Char → Scan α) {gap : List Char} (hg : Blanks gap)
    (s : List Char) : memberValue read (gap ++ ':' :: s) = read s := by
  have colon : colon (gap ++ ':' :: s) = .ok s := by
    rw [colon_eq_ok_iff, dropSpace_append hg, dropSpace_cons (by decide)]
  unfold memberValue
  rw [colon]

/-- The relation tells what has been made of the members so far, one member after the other. -/
structure Follows (member : σ → String → List Char → Scan σ) (told : List Entry → σ → Prop) : Prop where
  unique : ∀ {entries state state'}, told entries state → told entries state' → state = state'
  before : ∀ {entries more state}, told (entries ++ more) state → ∃ state', told entries state'
  step : ∀ {entries state next m e name rest after}, told entries state → Member.IsEntry m e →
    e.name? = some name → EndsPart rest → EndsPart after →
      (member state name (m.gap ++ ':' :: (m.item.text ++ rest)) = .ok (next, after) ↔
        m.item.after ++ rest = after ∧ told (entries ++ [e]) next)

namespace Follows

variable {told : List Entry → σ → Prop} {entries : List Entry}

theorem turn_iff (h : Follows member told) {state final : σ} (held : told entries state) {m : Member}
    {e : Entry} (means : m.IsEntry e) {fuel : Nat} {first : Bool} {s more after : List Char}
    (ends : EndsPart more)
    (found : nextName first s = memberName '"' (m.name ++ '"' :: (m.gap ++ ':' :: (m.item.text ++ more)))) :
    membersFrom member (fuel + 1) first state s = .ok (final, after) ↔
      e.name?.isSome ∧ ∃ next, told (entries ++ [e]) next ∧
        membersFrom member fuel false next (m.item.after ++ more) = .ok (final, after) := by
  have behind : EndsPart (m.item.after ++ more) := endsPart_append means.spaced.2.2.2 ends
  rw [membersFrom, found]
  constructor
  · intro read
    split at read
    · cases read
    · next named => cases (memberName_iff means).1 named with | intro name h => cases h.2.1
    · next name rest named =>
      obtain ⟨name', named, same, rfl⟩ := (memberName_iff means).1 named
      obtain rfl := Option.some.inj same
      split at read
      · cases read
      · next next rest taken =>
        have ends' := endsPart_of_membersFrom read
        obtain ⟨rfl, holds⟩ := (h.step held means named ends ends').1 taken
        exact ⟨by rw [named]; rfl, next, holds, read⟩
  · rintro ⟨named, next, holds, read⟩
    obtain ⟨name, named⟩ := Option.isSome_iff_exists.1 named
    have taken := (h.step held means named ends behind).2 ⟨rfl, holds⟩
    rw [(memberName_iff means).2 ⟨name, named, rfl, rfl⟩]
    simp only [taken]
    exact read

/-- A comma or the closing bracket comes after a member. -/
theorem endsPart_members (ms : List Member) (tail : List Char) :
    EndsPart (moreParts (ms.map Member.text) ++ '}' :: tail) :=
  Skip.endsPart_following .object _ tail

/-- The loop over the members after a first one reaches the closing bracket if all their names are texts, and
some state goes with them. -/
theorem membersFrom_iff (h : Follows member told) {ms : List Member} {es : List Entry}
    (means : List.Forall₂ Member.IsEntry ms es) {state final : σ} (held : told entries state)
    {blanks tail after : List Char} (hb : Blanks blanks) {fuel : Nat} (enough : ms.length < fuel) :
    membersFrom member fuel false state (blanks ++ (moreParts (ms.map Member.text) ++ '}' :: tail))
        = .ok (final, after) ↔
      after = '}' :: tail ∧ (∀ e ∈ es, e.name?.isSome) ∧ told (entries ++ es) final := by
  induction means generalizing entries state blanks fuel with
  | nil =>
    obtain ⟨fuel, rfl⟩ : ∃ k, fuel = k + 1 := ⟨fuel - 1, by simp at enough; omega⟩
    rw [List.map_nil, moreParts_nil, List.nil_append, membersFrom, nextName_close hb, List.append_nil]
    simp only [Except.ok.injEq, Prod.mk.injEq, List.not_mem_nil, false_imp_iff, implies_true, true_and]
    constructor
    · rintro ⟨rfl, rfl⟩
      exact ⟨rfl, held⟩
    · rintro ⟨rfl, holds⟩
      exact ⟨h.unique held holds, rfl⟩
  | @cons m e ms es means _ ih =>
    obtain ⟨fuel, rfl⟩ : ∃ k, fuel = k + 1 := ⟨fuel - 1, by simp at enough; omega⟩
    have found := @nextName_comma _ _ (m.name ++ '"' :: (m.gap ++ ':' :: (m.item.text
      ++ (moreParts (ms.map Member.text) ++ '}' :: tail)))) hb means.spaced.1
    have spelled : blanks ++ (moreParts ((m :: ms).map Member.text) ++ '}' :: tail)
        = blanks ++ ',' :: (m.before ++ '"' :: (m.name ++ '"' :: (m.gap ++ ':' :: (m.item.text
          ++ (moreParts (ms.map Member.text) ++ '}' :: tail))))) := by
      simp [Member.text]
    rw [spelled, h.turn_iff held means (endsPart_members ms tail) found]
    constructor
    · rintro ⟨named, next, holds, read⟩
      obtain ⟨same, others, all⟩ := (ih holds means.spaced.2.2.2 (by simpa using enough)).1 read
      rw [List.append_assoc] at all
      exact ⟨same, List.forall_mem_cons.2 ⟨named, others⟩, all⟩
    · rintro ⟨same, all, holds⟩
      obtain ⟨named, others⟩ := List.forall_mem_cons.1 all
      have split : entries ++ e :: es = (entries ++ [e]) ++ es := by simp
      rw [split] at holds
      obtain ⟨next, held'⟩ := h.before holds
      exact ⟨named, next, held', (ih held' means.spaced.2.2.2 (by simpa using enough)).2 ⟨same, others, holds⟩⟩

/-- The members of an object are read to its closing bracket, whatever follows that. -/
theorem members_iff (h : Follows member told) {start : σ} (held : told [] start) {ms : List Member}
    (means : List.Forall₂ Member.IsEntry ms entries) {inside tail after : List Char}
    (parted : Parted (ms.map Member.text) inside) {final : σ} :
    members member start (inside ++ '}' :: tail) = .ok (final, after) ↔
      after = '}' :: tail ∧ (∀ e ∈ entries, e.name?.isSome) ∧ told entries final := by
  unfold members
  cases means with
  | nil =>
    have hb : Blanks inside := parted
    rw [membersFrom, nextName_close hb]
    simp only [Except.ok.injEq, Prod.mk.injEq, List.not_mem_nil, false_imp_iff, implies_true, true_and]
    constructor
    · rintro ⟨rfl, rfl⟩
      exact ⟨rfl, held⟩
    · rintro ⟨rfl, holds⟩
      exact ⟨h.unique held holds, rfl⟩
  | @cons m e ms es means others =>
    obtain rfl : inside = m.text ++ moreParts (ms.map Member.text) := parted
    have found := @nextName_first _ (m.name ++ '"' :: (m.gap ++ ':' :: (m.item.text
      ++ (moreParts (ms.map Member.text) ++ '}' :: tail)))) means.spaced.1
    have spelled : (m.text ++ moreParts (ms.map Member.text)) ++ '}' :: tail
        = m.before ++ '"' :: (m.name ++ '"' :: (m.gap ++ ':' :: (m.item.text
          ++ (moreParts (ms.map Member.text) ++ '}' :: tail)))) := by
      simp [Member.text]
    have enough : ms.length < (m.before ++ '"' :: (m.name ++ '"' :: (m.gap ++ ':' :: (m.item.text
        ++ (moreParts (ms.map Member.text) ++ '}' :: tail))))).length := by
      have commas := length_le_moreParts (ms.map Member.text)
      simp only [List.length_append, List.length_cons, List.length_map] at commas ⊢
      omega
    rw [spelled, h.turn_iff held means (endsPart_members ms tail) found]
    constructor
    · rintro ⟨named, next, holds, read⟩
      obtain ⟨same, all, holds⟩ := (h.membersFrom_iff others holds means.spaced.2.2.2 enough).1 read
      exact ⟨same, List.forall_mem_cons.2 ⟨named, all⟩, holds⟩
    · rintro ⟨same, all, holds⟩
      obtain ⟨named, all⟩ := List.forall_mem_cons.1 all
      obtain ⟨next, held⟩ := h.before (show told ([e] ++ es) final from holds)
      exact ⟨named, next, held, (h.membersFrom_iff others held means.spaced.2.2.2 enough).2 ⟨same, all, holds⟩⟩

/-- An object is read to its end, whatever follows it. -/
theorem object_iff (h : Follows member told) {start : σ} (held : told [] start) {ms : List Member}
    (means : List.Forall₂ Member.IsEntry ms entries) {inside tail after : List Char}
    (parted : Parted (ms.map Member.text) inside) {final : σ} :
    close endObject (members member start (inside ++ '}' :: tail)) = .ok (final, after) ↔
      after = tail ∧ (∀ e ∈ entries, e.name?.isSome) ∧ told entries final := by
  rw [close_eq_ok_iff]
  constructor
  · rintro ⟨rest, read, closed⟩
    obtain ⟨rfl, named, holds⟩ := (h.members_iff held means parted).1 read
    rw [endObject_close] at closed
    exact ⟨(Prod.mk.inj closed).2.symm, named, holds⟩
  · rintro ⟨rfl, named, holds⟩
    exact ⟨_, (h.members_iff held means parted).2 ⟨rfl, named, holds⟩, endObject_close _⟩

end Follows

end Courier.Json
