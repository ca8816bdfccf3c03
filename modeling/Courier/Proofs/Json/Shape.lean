import Courier.Json.Choice
import Courier.Json.Dates
import Courier.Json.Literal.Lemmas
import Courier.Proofs.Calendar.DateText
import Courier.Proofs.Json.Numeral
import Courier.Proofs.Json.Writer

set_option autoImplicit false

/-! # Shapes that read back what they write

A shape is faithful when the text of any of its data, in a layout that puts only blanks between parts, is
read back to what the shape keeps of the data, whatever ends the text (`Shape.Faithful`). Most shapes keep
all of it; an instant keeps its second. Lists, tables and optional data keep what their parts keep, so each
has one law here, and records have theirs in `Courier.Proofs.Json.Record`.
-/

namespace Courier

open Json

def Table.map {α β : Type} (f : α → β) (t : Table α) : Table β where
  entries := t.entries.map fun p => (p.1, f p.2)
  inOrder := by
    show List.Pairwise _ _
    rw [List.pairwise_map]
    exact t.inOrder

namespace Json

/-! ## The law -/

/-- What is written for data is read back as what `keep` makes of it, if `height` containers may be opened.
Blanks may stand before the text. -/
def Shape.Faithful {α : Type} (shape : Shape α) (keep : α → α) (height : Nat) : Prop :=
  ∀ layout : Layout, layout.Sound → ∀ (level depth : Nat) (a : α) (blanks : List Char),
    height ≤ depth → Blanks blanks →
      Takes (shape.read depth) (blanks ++ (shape.write a).render layout level) (keep a)

namespace Shape

variable {α : Type}

theorem Faithful.mono {shape : Shape α} {keep : α → α} {height height' : Nat}
    (h : shape.Faithful keep height) (le : height ≤ height') : shape.Faithful keep height' := by
  intro layout sound level depth a blanks room hb
  exact h layout sound level depth a blanks (Nat.le_trans le room) hb

/-- What follows the blanks decides how a value is read. -/
theorem afterSpace_blanks {blanks : List Char} (hb : Blanks blanks) {c : Char}
    (hc : isSpace c = false) (take : Char → List Char → Scan α) (rest : List Char) :
    afterSpace take (blanks ++ c :: rest) = take c rest := by
  unfold afterSpace
  rw [dropSpace_append hb, dropSpace_cons hc]

/-! ## Plain data -/

theorem text_faithful : text.Faithful id 0 := by
  intro layout sound level depth s blanks _ hb rest _
  show readText depth ((blanks ++ '"' :: (s.toList.flatMap escape ++ ['"'])) ++ rest) = _
  rw [List.append_assoc, List.cons_append, List.append_assoc]
  unfold readText
  rw [afterSpace_blanks hb (by decide), if_pos rfl]
  exact Literal.read_flatMap_escape s rest

theorem flag_faithful : flag.Faithful id 0 := by
  intro layout sound level depth b blanks _ hb rest _
  cases b with
  | true =>
    show readFlag depth ((blanks ++ 't' :: ['r', 'u', 'e']) ++ rest) = _
    rw [List.append_assoc, List.cons_append]
    unfold readFlag
    rw [afterSpace_blanks hb (by decide)]
    rfl
  | false =>
    show readFlag depth ((blanks ++ 'f' :: ['a', 'l', 's', 'e']) ++ rest) = _
    rw [List.append_assoc, List.cons_append]
    unfold readFlag
    rw [afterSpace_blanks hb (by decide)]
    rfl

theorem natural_faithful : natural.Faithful id 0 := by
  intro layout sound level depth n blanks _ hb rest ends
  have bound := n.toNat_lt
  have inRange : Number.InRange (if false = true then -(n.toNat : Int) else n.toNat) := by
    rw [if_neg (by decide)]
    omega
  have read := Numeral.read_digits bound inRange (by simp) ends
  -- The reader looks at the first digit before it takes the numeral, so that one is told apart.
  obtain ⟨c, ds, hds, digit, -⟩ := Decimal.digits_eq_cons n.toNat
  have notMinus : c ≠ '-' := Decimal.ne_of_isDigit digit (by decide)
  have written : (natural.write n).render layout level = Decimal.digits n.toNat := by
    show Number.integerText (n.toNat : Int) = _
    unfold Number.integerText
    rw [if_neg (by omega), Int.natAbs_natCast]
  have narrowed : narrow (.ok (.integer _ inRange, rest)) = .ok (n, rest) := by
    simp [narrow, Number.natural?]
  rw [written, List.append_assoc]
  rw [hds, List.cons_append] at read ⊢
  show readNatural depth _ = _
  unfold readNatural
  rw [afterSpace_blanks hb (not_isSpace_of_isDigit digit), if_neg notMinus, if_pos digit, read, narrowed]
  rfl

theorem instant_faithful : instant.Faithful Instant.wholeSecond 0 := by
  intro layout sound level depth t blanks room hb rest ends
  have told := text_faithful layout sound level depth (DateText.format t) blanks room hb rest ends
  have read : readText depth ((blanks ++ (instant.write t).render layout level) ++ rest)
      = .ok (DateText.format t, rest) := told
  show readInstant depth _ = _
  unfold readInstant
  simp only [read, DateText.parse_format]

/-- A choice is read back by its name, if no two of them have the same one. -/
theorem choice_faithful {choices : Choices α}
    (distinct : ∀ a, choices.all.find? (fun b => choices.name b == choices.name a) = some a) :
    (choice choices).Faithful id 0 := by
  intro layout sound level depth a blanks _ hb rest _
  show readChoice choices depth
    ((blanks ++ '"' :: ((choices.name a).toList.flatMap escape ++ ['"'])) ++ rest) = _
  rw [List.append_assoc, List.cons_append, List.append_assoc]
  unfold readChoice
  rw [afterSpace_blanks hb (by decide), if_pos rfl, List.cons_append, List.nil_append,
    Literal.read_flatMap_escape]
  unfold Choices.pick
  simp only [distinct a]
  rfl

/-! ## Data that may be absent -/

theorem readOptional_null (read : Reader α) (depth : Nat) {s rest : List Char}
    (head : dropSpace s = 'n' :: rest) :
    readOptional read depth s = meaning ['u', 'l', 'l'] none rest := by
  unfold readOptional
  simp only [head]
  rfl

theorem readOptional_plain (read : Reader α) (depth : Nat) {s rest : List Char} {c : Char}
    (head : dropSpace s = c :: rest) (notNull : c ≠ 'n') :
    readOptional read depth s = (read depth s).map fun p => (some p.1, p.2) := by
  unfold readOptional
  simp only [head, if_neg notNull]

/-- Data that may be absent is read back, if nothing is written as `null` but what is absent. -/
theorem optional_faithful {shape : Shape α} {keep : α → α} {height : Nat} (h : shape.Faithful keep height)
    (present : ∀ a, shape.write a ≠ .null) : (optional shape).Faithful (Option.map keep) height := by
  intro layout sound level depth a? blanks room hb rest ends
  show readOptional shape.read depth _ = _
  cases a? with
  | none =>
    have head : dropSpace ((blanks ++ ((optional shape).write none).render layout level) ++ rest)
        = 'n' :: (['u', 'l', 'l'] ++ rest) := by
      show dropSpace ((blanks ++ 'n' :: ['u', 'l', 'l']) ++ rest) = _
      rw [List.append_assoc, dropSpace_append hb, List.cons_append, dropSpace_cons (by decide)]
    rw [readOptional_null shape.read depth head]
    rfl
  | some a =>
    -- Only `null` begins with its letter, so the reader of what is there is asked.
    obtain ⟨c, t, ht, hc, null⟩ := Tree.render_head layout level (shape.write a)
    have notNull : c ≠ 'n' := fun hn => present a (null hn)
    have read := h layout sound level depth a blanks room hb rest ends
    have written : (optional shape).write (some a) = shape.write a := rfl
    have head : dropSpace ((blanks ++ (shape.write a).render layout level) ++ rest) = c :: (t ++ rest) := by
      rw [List.append_assoc, dropSpace_append hb, ht, List.cons_append, dropSpace_cons hc.1]
    rw [written, readOptional_plain shape.read depth head notNull, read]
    rfl

theorem optionalText_faithful : (optional text).Faithful id 0 := by
  have present : ∀ s, text.write s ≠ .null := by
    intro s null
    cases null
  simpa using optional_faithful text_faithful present

/-! ## Containers -/

/-- A container is read from after its opening bracket, with room for one container less. -/
theorem container_blanks {bracket : Char} (notSpace : isSpace bracket = false) (expected : String)
    (content : Nat → List Char → Scan α) {blanks : List Char} (hb : Blanks blanks) {height depth : Nat}
    (room : height + 1 ≤ depth) (s : List Char) :
    container bracket expected content depth (blanks ++ bracket :: s) = content (depth - 1) s := by
  obtain ⟨depth, rfl⟩ : ∃ k, depth = k + 1 := ⟨depth - 1, by omega⟩
  unfold container
  rw [afterSpace_blanks hb notSpace, if_pos rfl]
  rfl

theorem list_faithful {shape : Shape α} {keep : α → α} {height : Nat} (h : shape.Faithful keep height) :
    (list shape).Faithful (List.map keep) (height + 1) := by
  intro layout sound level depth as blanks room hb rest _
  -- Each item with its text, one level further in, where one container less may be opened.
  let pairs := as.map fun a => ((shape.write a).render layout (level + 1), keep a)
  have taken : ∀ p ∈ pairs, Starts p.1 ∧ Takes (shape.read (depth - 1)) p.1 p.2 := by
    intro p hp
    obtain ⟨a, -, rfl⟩ := List.mem_map.1 hp
    refine ⟨Tree.starts_render _ _ _, ?_⟩
    exact h layout sound (level + 1) (depth - 1) a [] (by omega) blanks_nil
  obtain ⟨s, hs, all⟩ := allItems_enclose sound level rest pairs taken
  have written : ((list shape).write as).render layout level ++ rest = '[' :: s := by
    show (Tree.array (as.map shape.write)).render layout level ++ rest = _
    rw [← hs, Tree.render_array, List.map_map, List.map_map]
    rfl
  have kept : pairs.map Prod.snd = as.map keep := by
    rw [List.map_map]
    rfl
  rw [List.append_assoc, written]
  show container '[' "a sequence" _ depth _ = _
  rw [container_blanks (by decide) _ _ hb room, items_allItems all, kept]

/-- The colon after a name and the value after it are taken, blanks between them or not. -/
theorem Faithful.memberValue {shape : Shape α} {keep : α → α} {height : Nat}
    (h : shape.Faithful keep height) {layout : Layout} (sound : layout.Sound) (level : Nat) {depth : Nat}
    (room : height ≤ depth) (a : α) :
    Takes (memberValue (shape.read depth)) (layout.colon ++ (shape.write a).render layout level)
      (keep a) :=
  sound.takes_memberValue fun blanks hb => h layout sound level depth a blanks room hb

/-- What is written for a name is a literal of it. -/
theorem advances_renderMember {σ : Type} {member : σ → String → List Char → Scan σ} {state next : σ}
    {layout : Layout} {level : Nat} {name : String} {v : Value}
    (takes : Takes (member state name) (layout.colon ++ v.render layout level) next) :
    Advances member state name (Tree.renderMember layout level (name, v)) next := by
  refine ⟨name.toList.flatMap escape ++ ['"'], layout.colon ++ v.render layout level, ?_, ?_, takes⟩
  · simp [Tree.renderMember, textLiteral]
  · intro rest
    rw [List.append_assoc]
    exact Literal.read_flatMap_escape name rest

/-! ## Tables -/

/-- An entry whose name is above all others goes to the end. -/
theorem insertEntry_last {entries : List (String × α)} {name : String} (a : α)
    (above : ∀ p ∈ entries, p.1 < name) : insertEntry name a entries = entries ++ [(name, a)] := by
  induction entries with
  | nil => rfl
  | cons head entries ih =>
    obtain ⟨other, b⟩ := head
    have lt : other < name := above (other, b) (by simp)
    have notLt : ¬name < other := String.lt_asymm lt
    have ne : name ≠ other := by rintro rfl; exact String.lt_irrefl _ lt
    rw [insertEntry, if_neg notLt, if_neg ne, ih fun p hp => above p (by simp [hp]), List.cons_append]

/-- Entries in order make up a table one after the other: each goes after those before it. -/
theorem chain_entries {shape : Shape α} {keep : α → α} {height depth : Nat}
    (h : shape.Faithful keep height) (room : height ≤ depth) {layout : Layout} (sound : layout.Sound)
    (level : Nat) (final : Table α) (done todo : List (String × α)) (table : Table α)
    (start : table.entries = done.map fun p => (p.1, keep p.2)) (inOrder : InOrder (done ++ todo))
    (stop : final.entries = (done ++ todo).map fun p => (p.1, keep p.2)) :
    Chain (fun (table : Table α) name s =>
        (memberValue (shape.read depth) s).map fun (a, rest) => (table.insert name a, rest))
      table (todo.map fun p => (p.1, Tree.renderMember layout level (p.1, shape.write p.2))) final := by
  -- One entry after the other goes from `todo` to `done`, and the table holds those that are done.
  induction todo generalizing done table with
  | nil =>
    have same : table = final := by
      obtain ⟨entries, _⟩ := table
      obtain ⟨entries', _⟩ := final
      simp only [List.append_nil] at stop
      simp only at start
      subst start stop
      rfl
    rw [same]
    exact .nil
  | cons p todo ih =>
    obtain ⟨name, a⟩ := p
    have above : ∀ q ∈ table.entries, q.1 < name := by
      intro q hq
      rw [start] at hq
      obtain ⟨q', hq', rfl⟩ := List.mem_map.1 hq
      exact (List.pairwise_append.1 inOrder).2.2 q' hq' (name, a) (by simp)
    have next := ih (done ++ [(name, a)]) (table.insert name (keep a))
      (by show insertEntry name (keep a) table.entries = _
          rw [insertEntry_last _ above, start, List.map_append]
          rfl)
      (by simpa using inOrder) (by simpa using stop)
    refine .cons (advances_renderMember fun rest ends => ?_) next
    simp only [h.memberValue sound level room a rest ends]
    rfl

theorem table_faithful {shape : Shape α} {keep : α → α} {height : Nat} (h : shape.Faithful keep height) :
    (table shape).Faithful (Table.map keep) (height + 1) := by
  intro layout sound level depth t blanks room hb rest _
  have room' : height ≤ depth - 1 := by omega
  have chain := chain_entries h room' sound (level + 1) (t.map keep) [] t.entries
    .empty rfl t.inOrder rfl
  obtain ⟨s, hs, all⟩ := allMembers_enclose sound level rest chain
  have written : ((table shape).write t).render layout level ++ rest = '{' :: s := by
    show (Tree.object (t.entries.map fun p => (p.1, shape.write p.2))).render layout level ++ rest = _
    rw [← hs, Tree.render_object, List.map_map, List.map_map]
    rfl
  rw [List.append_assoc, written]
  show container '{' "a map" _ depth _ = _
  rw [container_blanks (by decide) _ _ hb room]
  simp only [members_allMembers all, close, endObject_close]

end Shape

end Json

end Courier
