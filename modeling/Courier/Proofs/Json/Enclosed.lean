import Courier.Proofs.Json.Locality

set_option autoImplicit false

/-! # Lists and choices are read alike wherever they stand

The items of a list are parted by commas, and each is read alike wherever it stands; so is the list, with room
for one container more (`Shape.list_local`). A choice may be the only member of an object
(`Shape.readTagged_eq_ok_iff`), and takes room for that.
-/

namespace Courier.Json

/-! ## Lists -/

theorem nextItem_eq_close {first : Bool} {s rest : List Char} (h : nextItem first s = .ok (false, rest)) :
    ∃ tail, rest = ']' :: tail ∧ dropSpace s = rest := by
  unfold nextItem at h
  split at h
  · cases h
  · next c tail begins =>
    split at h
    · next close =>
      obtain ⟨-, rfl⟩ := Prod.mk.inj (Except.ok.inj h)
      exact ⟨tail, by rw [close], begins⟩
    · split at h
      · cases h
      · split at h
        · split at h
          · cases h
          · split at h <;> cases h
        · cases h

theorem nextItem_eq_item {s rest : List Char} (h : nextItem false s = .ok (true, rest)) :
    ∃ tail, dropSpace s = ',' :: tail ∧ dropSpace tail = rest := by
  unfold nextItem at h
  split at h
  · cases h
  · next c tail begins =>
    split at h
    · cases h
    · rw [if_neg (by decide)] at h
      split at h
      · next comma =>
        split at h
        · cases h
        · next d tail' begins' =>
          split at h
          · cases h
          · obtain ⟨-, rfl⟩ := Prod.mk.inj (Except.ok.inj h)
            exact ⟨tail, by rw [begins, comma], begins'⟩
      · cases h

theorem nextItem_eq_first {s rest : List Char} (h : nextItem true s = .ok (true, rest)) :
    dropSpace s = rest := by
  unfold nextItem at h
  split at h
  · cases h
  · next c tail begins =>
    split at h
    · cases h
    · obtain ⟨-, rfl⟩ := Prod.mk.inj (Except.ok.inj h)
      exact begins

namespace Shape

variable {α : Type} {shape : Shape α} {height : Nat}

structure ItemRead (shape : Shape α) (height : Nat) (p : Item × α) : Prop where
  spaced : p.1.Spaced
  wellFormed : WellFormed p.1.value
  reads : shape.Reads height p.1.value p.2

theorem Local.item (h : shape.Local height) {depth : Nat} {s after rest : List Char} {a : α}
    (taken : shape.read depth (dropSpace s) = .ok (a, after ++ rest)) (ha : Blanks after) :
    ∃ i : Item, s = i.text ++ rest ∧ ItemRead shape height (i, a) := by
  obtain ⟨space, split, hs⟩ := exists_space s
  obtain ⟨blanks, t, value, hb, wellFormed, reads⟩ := h _ _ _ _ taken
  have before : Blanks (space ++ blanks) := by
    intro c hc
    rcases List.mem_append.1 hc with hc | hc
    · exact hs c hc
    · exact hb c hc
  refine ⟨⟨space ++ blanks, t, after⟩, ?_, ⟨before, ha⟩, wellFormed, reads⟩
  rw [split, value]
  simp [Item.text]

/-- The items that have been read after a first one, and the blanks between that one and them. -/
theorem itemsFrom_parted (h : shape.Local height) {depth fuel : Nat} {acc as : List α} {s rest : List Char}
    (read : itemsFrom (shape.read depth) fuel false acc s = .ok (as, rest)) :
    ∃ (after : List Char) (pairs : List (Item × α)) (tail : List Char), rest = ']' :: tail ∧
      s = after ++ (moreParts (pairs.map fun p => p.1.text) ++ rest) ∧
      Blanks after ∧ (∀ p ∈ pairs, ItemRead shape height p) ∧ as = acc.reverse ++ pairs.map Prod.snd := by
  induction fuel generalizing acc s with
  | zero => cases read
  | succ fuel ih =>
    obtain ⟨after, split, ha⟩ := exists_space s
    rw [itemsFrom] at read
    split at read
    · cases read
    · next closed =>
      obtain ⟨rfl, rfl⟩ := Prod.mk.inj (Except.ok.inj read)
      obtain ⟨tail, close, begins⟩ := nextItem_eq_close closed
      exact ⟨after, [], tail, close, by rw [begins] at split; exact split, ha, by simp, by simp⟩
    · next found =>
      obtain ⟨tail, comma, rfl⟩ := nextItem_eq_item found
      split at read
      · cases read
      · next a behind taken =>
        obtain ⟨behind', pairs, last, rfl, rfl, hb, items, rfl⟩ := ih read
        obtain ⟨i, rfl, item⟩ := h.item taken hb
        refine ⟨after, (i, a) :: pairs, last, rfl, ?_, ha, ?_, by simp⟩
        · rw [split, comma]
          simp
        · exact List.forall_mem_cons.2 ⟨item, items⟩

/-- What has been read as items is parted by commas, up to the closing bracket. -/
theorem items_parted (h : shape.Local height) {depth : Nat} {as : List α} {s rest : List Char}
    (read : items (shape.read depth) s = .ok (as, rest)) :
    ∃ (inside : List Char) (pairs : List (Item × α)), s = inside ++ ']' :: rest ∧
      Parted (pairs.map fun p => p.1.text) inside ∧ (∀ p ∈ pairs, ItemRead shape height p) ∧
      as = pairs.map Prod.snd := by
  obtain ⟨tail, read, closed⟩ := close_eq_ok_iff.1 read
  have ended : ∀ {tail : List Char}, endArray (']' :: tail) = (none, rest) → tail = rest := by
    intro tail closed
    rw [endArray, dropSpace_cons (by decide)] at closed
    exact (Prod.mk.inj closed).2
  rw [itemsFrom] at read
  split at read
  · cases read
  · next none =>
    obtain ⟨rfl, rfl⟩ := Prod.mk.inj (Except.ok.inj read)
    obtain ⟨tail, rfl, begins⟩ := nextItem_eq_close none
    obtain ⟨blanks, split, hb⟩ := exists_space s
    obtain rfl := ended closed
    exact ⟨blanks, [], by rw [begins] at split; exact split, hb, by simp, rfl⟩
  · next found =>
    obtain rfl := nextItem_eq_first found
    split at read
    · cases read
    · next a behind taken =>
      obtain ⟨behind', pairs, last, rfl, rfl, hb, items, rfl⟩ := itemsFrom_parted h read
      obtain rfl := ended closed
      obtain ⟨i, rfl, item⟩ := h.item taken hb
      refine ⟨_, (i, a) :: pairs, (List.append_assoc _ _ _).symm, rfl, ?_, by simp⟩
      exact List.forall_mem_cons.2 ⟨item, items⟩

theorem ItemRead.takes {depth : Nat} (room : height ≤ depth) {p : Item × α} (h : ItemRead shape height p) :
    Takes (shape.read depth) p.1.value p.2 :=
  h.reads depth room [] blanks_nil

theorem moreItems_parted {depth : Nat} (room : height ≤ depth) {after : List Char} (ha : Blanks after)
    (pairs : List (Item × α)) (h : ∀ p ∈ pairs, ItemRead shape height p) (rest : List Char) :
    MoreItems (shape.read depth)
      (after ++ (moreParts (pairs.map fun p => p.1.text) ++ ']' :: rest))
      (pairs.map Prod.snd) rest := by
  induction pairs generalizing after with
  | nil => exact .close ha
  | cons p pairs ih =>
    obtain ⟨first, others⟩ := List.forall_mem_cons.1 h
    have step := MoreItems.comma ha first.spaced.1 first.wellFormed.starts (first.takes room)
      (ih first.spaced.2 others)
    simpa [Item.text] using step

/-- Items parted by commas are read up to the closing bracket, whatever follows it. -/
theorem items_of_parted {depth : Nat} (room : height ≤ depth) {pairs : List (Item × α)}
    (h : ∀ p ∈ pairs, ItemRead shape height p) {inside : List Char}
    (parted : Parted (pairs.map fun p => p.1.text) inside) (rest : List Char) :
    items (shape.read depth) (inside ++ ']' :: rest) = .ok (pairs.map Prod.snd, rest) := by
  apply items_allItems
  cases pairs with
  | nil => exact .none parted
  | cons p pairs =>
    obtain ⟨first, others⟩ := List.forall_mem_cons.1 h
    obtain rfl := parted
    have all := AllItems.some first.spaced.1 first.wellFormed.starts (first.takes room)
      (moreItems_parted room first.spaced.2 pairs others rest)
    simpa [Item.text] using all

theorem list_local (h : shape.Local height) : (list shape).Local (height + 1) := by
  refine local_of_afterSpace (fun _ _ => rfl) ?_
  intro depth c tail as rest taken
  split at taken
  · next bracket =>
    obtain ⟨inner, -, content⟩ := enter_eq_ok_iff.1 taken
    obtain ⟨inside, pairs, rfl, parted, items, rfl⟩ := items_parted h content
    refine ⟨inside ++ [']'], by simp, bracket ▸ @WellFormed.array (pairs.map Prod.fst) _ ?_ ?_ ?_, ?_⟩
    · rw [List.map_map]
      exact parted
    · intro i hi
      obtain ⟨p, hp, rfl⟩ := List.mem_map.1 hi
      exact (items p hp).spaced
    · intro i hi
      obtain ⟨p, hp, rfl⟩ := List.mem_map.1 hi
      exact (items p hp).wellFormed
    · intro depth room rest _
      rw [if_pos bracket, enter_eq_ok_iff]
      refine ⟨depth - 1, by omega, ?_⟩
      rw [List.append_assoc]
      exact items_of_parted (by omega) items parted rest
  · cases taken

/-! ## Choices -/

theorem pick_eq_ok_iff {choices : Choices α} {scan : Scan String} {a : α} {rest : List Char} :
    choices.pick scan = .ok (a, rest) ↔
      ∃ name, scan = .ok (name, rest) ∧ (choices.all.find? fun a => choices.name a == name) = some a := by
  unfold Choices.pick
  cases scan with
  | error fault => simp
  | ok p =>
    obtain ⟨name, after⟩ := p
    cases found : choices.all.find? fun a => choices.name a == name with
    | none =>
      simp only [found]
      constructor
      · intro failed
        cases failed
      · rintro ⟨name', same, found'⟩
        obtain ⟨rfl, -⟩ := Prod.mk.inj (Except.ok.inj same)
        rw [found] at found'
        cases found'
    | some b =>
      simp only [found]
      constructor
      · intro same
        obtain ⟨rfl, rfl⟩ := Prod.mk.inj (Except.ok.inj same)
        exact ⟨name, rfl, found⟩
      · rintro ⟨name', same, found'⟩
        obtain ⟨rfl, rfl⟩ := Prod.mk.inj (Except.ok.inj same)
        rw [found] at found'
        obtain rfl := Option.some.inj found'
        rfl

theorem endTagged_eq_ok_iff {s rest : List Char} :
    endTagged s = .ok rest ↔
      ∃ gap before after, s = gap ++ ':' :: (before ++ ['n', 'u', 'l', 'l'] ++ (after ++ '}' :: rest)) ∧
        Blanks gap ∧ Blanks before ∧ Blanks after := by
  unfold endTagged
  constructor
  · intro h
    obtain ⟨s₁, colon, h⟩ := Except.bind_eq_ok_iff.1 h
    obtain ⟨⟨u, s₂⟩, null, h⟩ := Except.bind_eq_ok_iff.1 h
    obtain ⟨c, tail, begins, null⟩ := afterSpace_eq_ok_iff.1 null
    split at null
    · next letter =>
      obtain ⟨rfl, -⟩ := meaning_eq_ok_iff.1 null
      obtain ⟨gap, split, hg⟩ := exists_space s
      obtain ⟨before, split', hb⟩ := exists_space s₁
      obtain ⟨after, split'', ha⟩ := exists_space s₂
      simp only at h
      split at h
      · cases h
      · next d rest' close =>
        split at h
        · next same =>
          obtain rfl := Except.ok.inj h
          refine ⟨gap, before, after, ?_, hg, hb, ha⟩
          rw [split, colon_eq_ok_iff.1 colon, split', begins, letter]
          rw [split'', close, same]
          simp
        · cases h
    · cases null
  · rintro ⟨gap, before, after, rfl, hg, hb, ha⟩
    refine Except.bind_eq_ok_iff.2 ⟨before ++ (['n', 'u', 'l', 'l'] ++ (after ++ '}' :: rest)), ?_, ?_⟩
    · rw [colon_eq_ok_iff, dropSpace_append hg, dropSpace_cons (by decide), List.append_assoc]
    · refine Except.bind_eq_ok_iff.2 ⟨((), after ++ '}' :: rest), ?_, ?_⟩
      · exact afterSpace_eq_ok_iff.2 ⟨'n', _, WellFormed.null.dropSpace hb _, meaning_eq_ok_iff.2 ⟨rfl, rfl⟩⟩
      · simp only [dropSpace_append ha, dropSpace_cons (show isSpace '}' = false by decide), if_true]

/-- A choice given by an object is the name of its only member, whose value is `null`. -/
theorem readTagged_eq_ok_iff {choices : Choices α} {s rest : List Char} {a : α} :
    readTagged choices s = .ok (a, rest) ↔
      ∃ (m : Member) (name : String), s = m.text ++ '}' :: rest ∧ m.Spaced ∧
        m.item.value = ['n', 'u', 'l', 'l'] ∧ Literal.Spells m.name name.toList ∧
        (choices.all.find? fun a => choices.name a == name) = some a := by
  unfold readTagged
  constructor
  · intro h
    obtain ⟨blanks, split, hb⟩ := exists_space s
    split at h
    · cases h
    · next c tail begins =>
      split at h
      · next quote =>
        split at h
        · cases h
        · next b behind picked =>
          obtain ⟨rest', ended, same⟩ := Except.map_eq_ok_iff.1 h
          obtain ⟨rfl, rfl⟩ := Prod.mk.inj same
          obtain ⟨name, read, found⟩ := pick_eq_ok_iff.1 picked
          obtain ⟨inside, rfl, spells⟩ := Literal.read_eq_ok_iff.1 read
          obtain ⟨gap, before, after, rfl, hg, hb', ha⟩ := endTagged_eq_ok_iff.1 ended
          refine ⟨⟨blanks, inside, gap, before, ['n', 'u', 'l', 'l'], after⟩, name, ?_, ⟨hb, hg, hb', ha⟩, rfl,
            spells, found⟩
          rw [split, begins, quote]
          simp [Member.text, Item.text]
      · split at h <;> cases h
  · rintro ⟨⟨blanks, inside, gap, before, value, after⟩, name, rfl, ⟨hb, hg, hb', ha⟩, null, spells, found⟩
    obtain rfl : value = ['n', 'u', 'l', 'l'] := null
    generalize hs : gap ++ ':' :: (before ++ ['n', 'u', 'l', 'l'] ++ (after ++ '}' :: rest)) = s₁
    have same : (Member.mk blanks inside gap ⟨before, ['n', 'u', 'l', 'l'], after⟩).text ++ '}' :: rest
        = blanks ++ '"' :: (inside ++ '"' :: s₁) := by
      rw [← hs]
      simp [Member.text, Item.text]
    have ended : endTagged s₁ = .ok rest :=
      endTagged_eq_ok_iff.2 ⟨gap, before, after, hs.symm, hg, hb', ha⟩
    have picked : choices.pick (Literal.read (inside ++ '"' :: s₁)) = .ok (a, s₁) :=
      pick_eq_ok_iff.2 ⟨name, Literal.read_eq_ok_iff.2 ⟨inside, rfl, spells⟩, found⟩
    rw [same, dropSpace_append hb, dropSpace_cons (by decide)]
    simp only [if_true, picked, ended]
    rfl

theorem choice_local (choices : Choices α) : (choice choices).Local 1 := by
  refine local_of_afterSpace (fun _ _ => rfl) ?_
  intro depth c tail a rest taken
  split at taken
  · next quote =>
    obtain ⟨name, read, found⟩ := pick_eq_ok_iff.1 taken
    obtain ⟨inside, rfl, spells⟩ := Literal.read_eq_ok_iff.1 read
    refine ⟨inside ++ ['"'], by simp, quote ▸ .literal spells.inside, ?_⟩
    intro depth _ rest _
    rw [if_pos quote, List.append_assoc]
    exact pick_eq_ok_iff.2 ⟨name, Literal.read_eq_ok_iff.2 ⟨inside, rfl, spells⟩, found⟩
  · next notQuote =>
    split at taken
    · next bracket =>
      obtain ⟨inner, -, content⟩ := enter_eq_ok_iff.1 taken
      obtain ⟨m, name, same, spaced, null, spells, found⟩ := readTagged_eq_ok_iff.1 content
      obtain rfl : tail = m.text ++ '}' :: rest := same
      refine ⟨m.text ++ ['}'], by simp, ?_, ?_⟩
      · exact bracket ▸ @WellFormed.object [m] _ (by simp [Parted]) (by simpa using spaced)
          (by simpa using spells.inside) (by simpa [null] using WellFormed.null)
      · intro depth room rest _
        rw [if_neg notQuote, if_pos bracket, enter_eq_ok_iff]
        refine ⟨depth - 1, by omega, readTagged_eq_ok_iff.2 ⟨m, name, ?_, spaced, null, spells, found⟩⟩
        simp
    · cases taken

end Shape

end Courier.Json
