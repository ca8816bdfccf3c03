import Courier.Json.Container.Lemmas

set_option autoImplicit false

/-! # Texts of arrays and objects

A text of an array is told by a grammar (`AllItems`): each item is taken by the reader of items, blanks may
stand around it, and commas part the items. Such a text is read to its closing bracket, and gives what the
items give (`items_allItems`). The same holds of objects (`AllMembers`, `members_allMembers`), where each
member takes a state on. What `Layout.enclose` writes around parts is such a text (`allItems_enclose`,
`allMembers_enclose`).
-/

namespace Courier.Json

/-- The text is taken for `a`: if what follows ends it, the reader stops there. -/
def Takes {α : Type} (scan : List Char → Scan α) (t : List Char) (a : α) : Prop :=
  ∀ rest, EndsPart rest → scan (t ++ rest) = .ok (a, rest)

theorem blanks_nil : Blanks [] := by
  intro c h
  simp at h

theorem endsPart_nil : EndsPart [] := by
  intro c h
  simp at h

theorem endsPart_cons {c : Char} (h : isSpace c = true ∨ c = ',' ∨ c = ']' ∨ c = '}') (s : List Char) :
    EndsPart (c :: s) := by
  intro d hd
  obtain rfl : c = d := by simpa using hd
  exact h

/-- Blanks end a part, and so does a mark after them. -/
theorem endsPart_blanks {blanks : List Char} (hb : Blanks blanks) {c : Char}
    (h : c = ',' ∨ c = ']' ∨ c = '}') (s : List Char) : EndsPart (blanks ++ c :: s) := by
  cases blanks with
  | nil => exact endsPart_cons (.inr h) s
  | cons d blanks => exact endsPart_cons (.inl (hb d (by simp))) _

/-! ## Arrays -/

section Items

variable {α : Type} {item : List Char → Scan α}

/-- The text of the items after the first one, to the closing bracket; `rest` follows it. -/
inductive MoreItems (item : List Char → Scan α) : List Char → List α → List Char → Prop where
  | close {blanks rest : List Char} (hb : Blanks blanks) :
      MoreItems item (blanks ++ ']' :: rest) [] rest
  | comma {before after t s rest : List Char} {a : α} {as : List α} (hb : Blanks before)
      (ha : Blanks after) (starts : Starts t) (takes : Takes item t a) (more : MoreItems item s as rest) :
      MoreItems item (before ++ ',' :: (after ++ (t ++ s))) (a :: as) rest

/-- The text of all items, to the closing bracket; `rest` follows it. -/
inductive AllItems (item : List Char → Scan α) : List Char → List α → List Char → Prop where
  | none {blanks rest : List Char} (hb : Blanks blanks) :
      AllItems item (blanks ++ ']' :: rest) [] rest
  | some {blanks t s rest : List Char} {a : α} {as : List α} (hb : Blanks blanks) (starts : Starts t)
      (takes : Takes item t a) (more : MoreItems item s as rest) :
      AllItems item (blanks ++ (t ++ s)) (a :: as) rest

theorem MoreItems.endsPart {s rest : List Char} {as : List α} (h : MoreItems item s as rest) :
    EndsPart s := by
  cases h with
  | close hb => exact endsPart_blanks hb (.inr (.inl rfl)) _
  | comma hb _ _ _ _ => exact endsPart_blanks hb (.inl rfl) _

theorem itemsFrom_of_takes {fuel : Nat} {first : Bool} {acc : List α} {s t tail : List Char} {a : α}
    (takes : Takes item t a) (ends : EndsPart tail) (found : nextItem first s = .ok (true, t ++ tail)) :
    itemsFrom item (fuel + 1) first acc s = itemsFrom item fuel false (a :: acc) tail := by
  rw [itemsFrom, found]
  simp only [takes tail ends]

/-- The loop takes one item after the other; a comma stands before each, so the text outlasts them. -/
theorem itemsFrom_moreItems {s rest : List Char} {as : List α} (h : MoreItems item s as rest)
    {fuel : Nat} (hf : s.length < fuel) (acc : List α) :
    itemsFrom item fuel false acc s = .ok (acc.reverse ++ as, ']' :: rest) := by
  induction h generalizing fuel acc with
  | close hb =>
    obtain ⟨fuel, rfl⟩ : ∃ k, fuel = k + 1 := ⟨fuel - 1, by omega⟩
    simp [itemsFrom, nextItem_close hb]
  | @comma before after t s rest a as hb ha starts takes more ih =>
    obtain ⟨fuel, rfl⟩ : ∃ k, fuel = k + 1 := ⟨fuel - 1, by omega⟩
    -- The comma alone pays for the turn.
    have shorter : s.length < fuel := by
      simp only [List.length_append, List.length_cons] at hf
      omega
    rw [itemsFrom_of_takes takes more.endsPart (nextItem_comma hb ha starts), ih shorter (a :: acc)]
    simp

/-- The text of an array is read to its closing bracket, and gives its items. -/
theorem items_allItems {s rest : List Char} {as : List α} (h : AllItems item s as rest) :
    items item s = .ok (as, rest) := by
  have closed : endArray (']' :: rest) = (Option.none, rest) := by
    simp [endArray, dropSpace_cons (show isSpace ']' = false by decide)]
  have read : itemsFrom item (s.length + 1) true [] s = .ok (as, ']' :: rest) := by
    cases h with
    | none hb => simp [itemsFrom, nextItem_close hb]
    | @some blanks t s rest a as hb starts takes more =>
      -- No comma stands before the first item, but its text is not empty.
      have shorter : s.length < (blanks ++ (t ++ s)).length := by
        obtain ⟨c, t', rfl, -⟩ := starts
        simp only [List.length_append, List.length_cons]
        omega
      rw [itemsFrom_of_takes takes more.endsPart (nextItem_first hb starts), itemsFrom_moreItems more shorter [a]]
      simp
  rw [items, read]
  simp [close, closed]

end Items

/-! ## Objects -/

section Members

variable {σ : Type} {member : σ → String → List Char → Scan σ}

/-- The text of a member: a literal of its name, and the rest of it, which takes the state on. -/
def Advances (member : σ → String → List Char → Scan σ) (state : σ) (name : String) (t : List Char)
    (next : σ) : Prop :=
  ∃ literal value, t = '"' :: (literal ++ value) ∧
    (∀ rest, Literal.read (literal ++ rest) = .ok (name, rest)) ∧ Takes (member state name) value next

theorem Advances.quote {state next : σ} {name : String} {t : List Char} (h : Advances member state name t next) :
    ∃ u, t = '"' :: u := by
  obtain ⟨literal, value, same, -⟩ := h
  exact ⟨_, same⟩

theorem membersFrom_of_advances {fuel : Nat} {first : Bool} {state next : σ} {name : String}
    {s u tail : List Char} (advances : Advances member state name ('"' :: u) next) (ends : EndsPart tail)
    (found : nextName first s = memberName '"' (u ++ tail)) :
    membersFrom member (fuel + 1) first state s = membersFrom member fuel false next tail := by
  -- The member is its name, a literal, and what the reader of the name is given.
  obtain ⟨literal, value, same, named, takes⟩ := advances
  obtain rfl := (List.cons.inj same).2
  rw [membersFrom, found, memberName, if_pos rfl, List.append_assoc, named]
  simp only [Except.map, takes tail ends]

/-- The text of the members after the first one, to the closing bracket; `rest` follows it. -/
inductive MoreMembers (member : σ → String → List Char → Scan σ) :
    σ → List Char → σ → List Char → Prop where
  | close {state : σ} {blanks rest : List Char} (hb : Blanks blanks) :
      MoreMembers member state (blanks ++ '}' :: rest) state rest
  | comma {state next final : σ} {before after t s rest : List Char} {name : String}
      (hb : Blanks before) (ha : Blanks after) (advances : Advances member state name t next)
      (more : MoreMembers member next s final rest) :
      MoreMembers member state (before ++ ',' :: (after ++ (t ++ s))) final rest

/-- The text of all members, to the closing bracket; `rest` follows it. -/
inductive AllMembers (member : σ → String → List Char → Scan σ) :
    σ → List Char → σ → List Char → Prop where
  | none {state : σ} {blanks rest : List Char} (hb : Blanks blanks) :
      AllMembers member state (blanks ++ '}' :: rest) state rest
  | some {state next final : σ} {blanks t s rest : List Char} {name : String} (hb : Blanks blanks)
      (advances : Advances member state name t next) (more : MoreMembers member next s final rest) :
      AllMembers member state (blanks ++ (t ++ s)) final rest

theorem MoreMembers.endsPart {state final : σ} {s rest : List Char}
    (h : MoreMembers member state s final rest) : EndsPart s := by
  cases h with
  | close hb => exact endsPart_blanks hb (.inr (.inr rfl)) _
  | comma hb _ _ _ => exact endsPart_blanks hb (.inl rfl) _

theorem membersFrom_moreMembers {state final : σ} {s rest : List Char}
    (h : MoreMembers member state s final rest) {fuel : Nat} (hf : s.length < fuel) :
    membersFrom member fuel false state s = .ok (final, '}' :: rest) := by
  induction h generalizing fuel with
  | close hb =>
    obtain ⟨fuel, rfl⟩ : ∃ k, fuel = k + 1 := ⟨fuel - 1, by omega⟩
    simp [membersFrom, nextName_close hb]
  | @comma state next final before after t s rest name hb ha advances more ih =>
    obtain ⟨u, rfl⟩ := advances.quote
    obtain ⟨fuel, rfl⟩ : ∃ k, fuel = k + 1 := ⟨fuel - 1, by omega⟩
    have shorter : s.length < fuel := by
      simp only [List.length_append, List.length_cons] at hf
      omega
    rw [List.cons_append, membersFrom_of_advances advances more.endsPart (nextName_comma hb ha)]
    exact ih shorter

/-- The text of an object is read up to its closing bracket, and its members take the state on. -/
theorem members_allMembers {state final : σ} {s rest : List Char}
    (h : AllMembers member state s final rest) : members member state s = .ok (final, '}' :: rest) := by
  unfold members
  cases h with
  | none hb => simp [membersFrom, nextName_close hb]
  | @some next _ blanks t s rest name hb advances more =>
    obtain ⟨u, rfl⟩ := advances.quote
    rw [List.cons_append, membersFrom_of_advances advances more.endsPart (nextName_first hb)]
    refine membersFrom_moreMembers more ?_
    simp only [List.length_append, List.length_cons]
    omega

theorem endObject_close (rest : List Char) : endObject ('}' :: rest) = (Option.none, rest) := by
  simp [endObject, dropSpace_cons (show isSpace '}' = false by decide)]

/-- Members, by name and text, that take the state on one after the other. -/
inductive Chain (member : σ → String → List Char → Scan σ) :
    σ → List (String × List Char) → σ → Prop where
  | nil {state : σ} : Chain member state [] state
  | cons {state next final : σ} {name : String} {t : List Char} {parts : List (String × List Char)}
      (advances : Advances member state name t next) (chain : Chain member next parts final) :
      Chain member state ((name, t) :: parts) final

section Chain

variable {state final : σ} {parts : List (String × List Char)}

theorem Chain.split {more : List (String × List Char)} (chain : Chain member state (parts ++ more) final) :
    ∃ mid, Chain member state parts mid := by
  induction parts generalizing state with
  | nil => exact ⟨state, .nil⟩
  | cons p parts ih =>
    cases chain with
    | cons advances chain =>
      obtain ⟨mid, chain⟩ := ih chain
      exact ⟨mid, .cons advances chain⟩

/-- What each member that is read keeps true holds at the end of a chain. -/
theorem Chain.keeps {holds : σ → Prop} (chain : Chain member state parts final)
    (step : ∀ state next name s rest, name ∈ parts.map Prod.fst → holds state →
      member state name s = .ok (next, rest) → holds next)
    (start : holds state) : holds final := by
  induction chain with
  | nil => exact start
  | @cons state next final name t parts advances _ ih =>
    obtain ⟨literal, value, -, -, takes⟩ := advances
    have first := step state next name (value ++ []) [] List.mem_cons_self start (takes [] endsPart_nil)
    exact ih (fun state next name s rest mem => step state next name s rest (List.mem_cons_of_mem _ mem)) first

end Chain

end Members

/-! ## What a layout puts around parts -/

/-- The parts after the first one, as they are written. -/
def following (newline : List Char) (parts : List (List Char)) : List Char :=
  parts.flatMap fun part => ',' :: (newline ++ part)

theorem following_cons (newline part : List Char) (parts : List (List Char)) :
    following newline (part :: parts) = ',' :: (newline ++ (part ++ following newline parts)) := by
  simp [following]

/-- Brackets around at least one part, and what follows the closing one. -/
theorem enclose_cons_append (layout : Layout) (depth : Nat) (first last : Char) (part : List Char)
    (parts : List (List Char)) (rest : List Char) :
    layout.enclose depth first last (part :: parts) ++ rest = first :: (layout.newline (depth + 1)
      ++ (part ++ (following (layout.newline (depth + 1)) parts
      ++ (layout.newline depth ++ last :: rest)))) := by
  simp [Layout.enclose, following]

/-- Behind a colon that has been written stands what may stand before any value. -/
theorem Layout.Sound.memberValue {layout : Layout} (sound : layout.Sound) {α : Type}
    (read : List Char → Scan α) :
    ∃ blanks, Blanks blanks ∧ ∀ s, Json.memberValue read (layout.colon ++ s) = read (blanks ++ s) := by
  obtain ⟨blanks, colon, blank⟩ := sound.colon
  refine ⟨blanks, blank, fun s => ?_⟩
  unfold Json.memberValue Json.colon
  rw [colon, List.cons_append, dropSpace_cons (by decide)]
  rfl

theorem Layout.Sound.takes_memberValue {layout : Layout} (sound : layout.Sound) {α : Type}
    {read : List Char → Scan α} {t : List Char} {a : α}
    (takes : ∀ blanks, Blanks blanks → Takes read (blanks ++ t) a) :
    Takes (Json.memberValue read) (layout.colon ++ t) a := by
  intro rest ends
  obtain ⟨blanks, hb, behind⟩ := sound.memberValue read
  rw [List.append_assoc, behind, ← List.append_assoc]
  exact takes blanks hb rest ends

section Written

variable {layout : Layout} (sound : layout.Sound) (depth : Nat) (rest : List Char)

include sound

theorem moreItems_following {α : Type} {item : List Char → Scan α} (pairs : List (List Char × α))
    (h : ∀ p ∈ pairs, Starts p.1 ∧ Takes item p.1 p.2) :
    MoreItems item (following (layout.newline (depth + 1)) (pairs.map Prod.fst)
      ++ (layout.newline depth ++ ']' :: rest)) (pairs.map Prod.snd) rest := by
  induction pairs with
  | nil => exact .close (sound.newline depth)
  | cons p pairs ih =>
    obtain ⟨starts, takes⟩ := h p (by simp)
    have tail := ih fun q hq => h q (by simp [hq])
    -- Nothing stands before a comma, and a new line after it.
    have step := MoreItems.comma blanks_nil (sound.newline (depth + 1)) starts takes tail
    rw [List.map_cons, List.map_cons, following_cons]
    simpa using step

theorem allItems_enclose {α : Type} {item : List Char → Scan α} (pairs : List (List Char × α))
    (h : ∀ p ∈ pairs, Starts p.1 ∧ Takes item p.1 p.2) :
    ∃ s, layout.enclose depth '[' ']' (pairs.map Prod.fst) ++ rest = '[' :: s ∧
      AllItems item s (pairs.map Prod.snd) rest := by
  cases pairs with
  | nil => exact ⟨_, rfl, AllItems.none blanks_nil⟩
  | cons p pairs =>
    obtain ⟨starts, takes⟩ := h p (by simp)
    have more := moreItems_following sound depth rest pairs fun q hq => h q (by simp [hq])
    rw [List.map_cons, enclose_cons_append]
    exact ⟨_, rfl, .some (sound.newline (depth + 1)) starts takes more⟩

theorem moreMembers_following {σ : Type} {member : σ → String → List Char → Scan σ} {state final : σ}
    {parts : List (String × List Char)} (chain : Chain member state parts final) :
    MoreMembers member state (following (layout.newline (depth + 1)) (parts.map Prod.snd)
      ++ (layout.newline depth ++ '}' :: rest)) final rest := by
  induction chain with
  | nil => exact .close (sound.newline depth)
  | @cons state next final name t parts advances chain ih =>
    have step := MoreMembers.comma blanks_nil (sound.newline (depth + 1)) advances ih
    rw [List.map_cons, following_cons]
    simpa using step

/-- Members that have been written between brackets are the text of an object. -/
theorem allMembers_enclose {σ : Type} {member : σ → String → List Char → Scan σ} {state final : σ}
    {parts : List (String × List Char)} (chain : Chain member state parts final) :
    ∃ s, layout.enclose depth '{' '}' (parts.map Prod.snd) ++ rest = '{' :: s ∧
      AllMembers member state s final rest := by
  cases chain with
  | nil => exact ⟨_, rfl, AllMembers.none blanks_nil⟩
  | @cons _ next _ name t parts advances chain =>
    have more := moreMembers_following sound depth rest chain
    rw [List.map_cons, enclose_cons_append]
    exact ⟨_, rfl, .some (sound.newline (depth + 1)) advances more⟩

end Written

end Courier.Json
