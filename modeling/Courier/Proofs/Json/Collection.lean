import Courier.Proofs.Json.Uniform
import Courier.Proofs.Lists
import Courier.Proofs.Table

set_option autoImplicit false

/-! # Collections that are read part by part

The parts of a list or a table are read one after the other, each as what it is decoded as by itself. So an
array is read as a list exactly if all of its items are decoded (`Shape.Uniform.list_decode_iff`), and an object
as a table exactly if the names of its members are texts and all of their values are decoded, those of a name
that comes again among them (`Shape.Uniform.table_decode_iff`). The shape of the parts has to be uniform, for
each of them ends where the next one begins.
-/

namespace Courier.Json

/-! ## Texts of collections -/

/-- The item is the given text of a value. Blanks may stand around either. -/
structure Item.HasText (i : Item) (text : String) : Prop where
  spaced : i.Spaced
  wellFormed : WellFormed i.value
  value : Shape.Padded i.value text

/-- The text is a document that is an array of the given texts. -/
def ArrayText (texts : List String) (text : String) : Prop :=
  ∃ (before inside after : List Char) (items : List Item),
    text.toList = before ++ '[' :: (inside ++ ']' :: after) ∧ Blanks before ∧ Blanks after ∧
      Parted (items.map Item.text) inside ∧ List.Forall₂ Item.HasText items texts

/-- The entry has the given name, and the given text of a value. Blanks may stand around the text. -/
def Entry.Pairs (e : Entry) (p : String × String) : Prop :=
  e.name? = some p.1 ∧ Shape.Padded e.value.toList p.2

/-- The text is a document that is an object made of the given pairs of a name and a text. -/
def TableText (pairs : List (String × String)) (text : String) : Prop :=
  ∃ entries, ObjectText entries text ∧ List.Forall₂ Entry.Pairs entries pairs

namespace Shape

variable {α : Type} {shape : Shape α} {height depth : Nat}

/-! ## Items -/

namespace Uniform

theorem turn_iff (h : shape.Uniform height) (room : height ≤ depth) (limit : depth ≤ nestingLimit) {i : Item}
    {t : String} (told : i.HasText t) {fuel : Nat} {first : Bool} {acc as : List α} {s more after : List Char}
    (found : nextItem first s = .ok (true, i.value ++ (i.after ++ more))) :
    itemsFrom (shape.read depth) (fuel + 1) first acc s = .ok (as, after) ↔
      ∃ a, shape.decode t = .ok a ∧
        itemsFrom (shape.read depth) fuel false (a :: acc) (i.after ++ more) = .ok (as, after) := by
  have read : ∀ {a : α} {rest : List Char}, shape.read depth (i.value ++ (i.after ++ more)) = .ok (a, rest) ↔
      rest = i.after ++ more ∧ shape.decode t = .ok a := by
    intro a rest
    rw [h.decode_padded_iff (Nat.le_trans room limit) told.wellFormed told.value]
    exact h room limit blanks_nil told.wellFormed
  rw [itemsFrom, found]
  constructor
  · intro taken
    simp only at taken
    split at taken
    · cases taken
    · next a rest value =>
      obtain ⟨rfl, decoded⟩ := read.1 value
      exact ⟨a, decoded, taken⟩
  · rintro ⟨a, decoded, taken⟩
    simp only [read.2 ⟨rfl, decoded⟩]
    exact taken

/-- The items after a first one are read one after the other. -/
theorem itemsFrom_iff (h : shape.Uniform height) (room : height ≤ depth) (limit : depth ≤ nestingLimit)
    {items : List Item} {texts : List String} (told : List.Forall₂ Item.HasText items texts) {acc as : List α}
    {blanks tail after : List Char} (hb : Blanks blanks) {fuel : Nat} (enough : items.length < fuel) :
    itemsFrom (shape.read depth) fuel false acc (blanks ++ (moreParts (items.map Item.text) ++ ']' :: tail))
        = .ok (as, after) ↔
      after = ']' :: tail ∧
        ∃ more, List.Forall₂ (fun t a => shape.decode t = .ok a) texts more ∧ as = acc.reverse ++ more := by
  induction told generalizing acc blanks fuel with
  | nil =>
    obtain ⟨fuel, rfl⟩ : ∃ k, fuel = k + 1 := ⟨fuel - 1, by simp at enough; omega⟩
    rw [List.map_nil, moreParts_nil, List.nil_append, itemsFrom, nextItem_close hb]
    simp only [Except.ok.injEq, Prod.mk.injEq, List.forall₂_nil_left_iff, exists_eq_left, List.append_nil]
    constructor
    · rintro ⟨rfl, rfl⟩
      exact ⟨rfl, rfl⟩
    · rintro ⟨rfl, rfl⟩
      exact ⟨rfl, rfl⟩
  | @cons i t items texts told _ ih =>
    obtain ⟨fuel, rfl⟩ : ∃ k, fuel = k + 1 := ⟨fuel - 1, by simp at enough; omega⟩
    have found := @nextItem_comma _ _ _ (i.after ++ (moreParts (items.map Item.text) ++ ']' :: tail)) hb
      told.spaced.1 told.wellFormed.starts
    have split : blanks ++ (moreParts ((i :: items).map Item.text) ++ ']' :: tail)
        = blanks ++ ',' :: (i.before ++ (i.value
          ++ (i.after ++ (moreParts (items.map Item.text) ++ ']' :: tail)))) := by
      simp [Item.text]
    rw [split, h.turn_iff room limit told found]
    constructor
    · rintro ⟨a, decoded, taken⟩
      obtain ⟨same, more, others, rfl⟩ := (ih told.spaced.2 (by simpa using enough)).1 taken
      exact ⟨same, a :: more, .cons decoded others, by simp⟩
    · rintro ⟨same, more, all, rfl⟩
      obtain ⟨a, others, decoded, rest, rfl⟩ := List.forall₂_cons_left_iff.1 all
      exact ⟨a, decoded, (ih told.spaced.2 (by simpa using enough)).2 ⟨same, others, rest, by simp⟩⟩

theorem items_iff (h : shape.Uniform height) (room : height ≤ depth) (limit : depth ≤ nestingLimit)
    {items : List Item} {texts : List String} (told : List.Forall₂ Item.HasText items texts)
    {inside tail after : List Char} (parted : Parted (items.map Item.text) inside) {as : List α} :
    Json.items (shape.read depth) (inside ++ ']' :: tail) = .ok (as, after) ↔
      after = tail ∧ List.Forall₂ (fun t a => shape.decode t = .ok a) texts as := by
  have closed : endArray (']' :: tail) = (none, tail) := endArray_eq_none_iff.2 (dropSpace_cons (by decide) _)
  have loop : ∀ {rest : List Char},
      itemsFrom (shape.read depth) ((inside ++ ']' :: tail).length + 1) true [] (inside ++ ']' :: tail)
          = .ok (as, rest) ↔
        rest = ']' :: tail ∧ List.Forall₂ (fun t a => shape.decode t = .ok a) texts as := by
    intro rest
    cases told with
    | nil =>
      have hb : Blanks inside := parted
      rw [itemsFrom, nextItem_close hb]
      simp only [Except.ok.injEq, Prod.mk.injEq, List.forall₂_nil_left_iff, List.reverse_nil]
      constructor
      · rintro ⟨rfl, rfl⟩
        exact ⟨rfl, rfl⟩
      · rintro ⟨rfl, rfl⟩
        exact ⟨rfl, rfl⟩
    | @cons i t items texts told others =>
      obtain rfl : inside = i.text ++ moreParts (items.map Item.text) := parted
      have found := @nextItem_first _ _ (i.after ++ (moreParts (items.map Item.text) ++ ']' :: tail))
        told.spaced.1 told.wellFormed.starts
      have split : i.text ++ moreParts (items.map Item.text) ++ ']' :: tail
          = i.before ++ (i.value ++ (i.after ++ (moreParts (items.map Item.text) ++ ']' :: tail))) := by
        simp [Item.text]
      have enough : items.length < (i.text ++ moreParts (items.map Item.text) ++ ']' :: tail).length := by
        have commas := length_le_moreParts (items.map Item.text)
        simp only [List.length_append, List.length_cons, List.length_map] at commas ⊢
        omega
      rw [split] at enough ⊢
      rw [h.turn_iff room limit told found]
      constructor
      · rintro ⟨a, decoded, taken⟩
        obtain ⟨same, more, others, rfl⟩ := (h.itemsFrom_iff room limit others told.spaced.2 enough).1 taken
        exact ⟨same, .cons decoded others⟩
      · rintro ⟨same, all⟩
        obtain ⟨a, more, decoded, rest, rfl⟩ := List.forall₂_cons_left_iff.1 all
        exact ⟨a, decoded, (h.itemsFrom_iff room limit others told.spaced.2 enough).2 ⟨same, more, rest, rfl⟩⟩
  unfold Json.items
  rw [close_eq_ok_iff]
  constructor
  · rintro ⟨rest, read, ended⟩
    obtain ⟨rfl, all⟩ := loop.1 read
    rw [closed] at ended
    exact ⟨(Prod.mk.inj ended).2.symm, all⟩
  · rintro ⟨rfl, all⟩
    exact ⟨_, loop.2 ⟨rfl, all⟩, closed⟩

/-- An array is decoded as a list exactly if all of its items are decoded, and only blanks follow it. -/
theorem list_decode_iff (h : shape.Uniform height) (room : height < nestingLimit) {texts : List String}
    {text : String} (array : ArrayText texts text) (more : String) (as : List α) :
    (list shape).decode (text ++ more) = .ok as ↔
      Blanks more.toList ∧ List.Forall₂ (fun t a => shape.decode t = .ok a) texts as := by
  obtain ⟨before, inside, after, items, same, hb, ha, parted, told⟩ := array
  have stops : ∀ rest as after',
      (list shape).read nestingLimit (text.toList ++ rest) = .ok (as, after') ↔
        after' = after ++ rest ∧ List.Forall₂ (fun t a => shape.decode t = .ok a) texts as := by
    intro rest as after'
    have content : (list shape).read nestingLimit (text.toList ++ rest)
        = Json.items (shape.read (nestingLimit - 1)) (inside ++ ']' :: (after ++ rest)) := by
      have split : text.toList ++ rest = before ++ '[' :: (inside ++ ']' :: (after ++ rest)) := by simp [same]
      rw [split]
      exact container_blanks (by decide) _ _ hb (Nat.succ_le_of_lt room) _
    rw [content]
    exact h.items_iff (Nat.le_sub_one_of_lt room) (Nat.sub_le _ _) told parted
  exact decode_iff_of_stops ha stops (String.toList_append) as

end Uniform

/-! ## Entries of tables -/

/-- The members of an object tell a table: their names are texts, all values are decoded, and of a name that
comes again the later value counts. -/
def Tabulates (shape : Shape α) (entries : List Entry) (t : Table α) : Prop :=
  ∃ as : List (String × α),
    List.Forall₂ (fun e p => e.name? = some p.1 ∧ shape.decode e.value = .ok p.2) entries as ∧
      t = Table.ofList as

/-- What has been decoded is settled by the text. -/
theorem rightUnique_decode : Relator.RightUnique fun (e : Entry) (p : String × α) =>
    e.name? = some p.1 ∧ shape.decode e.value = .ok p.2 := by
  rintro e ⟨name, a⟩ ⟨name', a'⟩ ⟨named, decoded⟩ ⟨named', decoded'⟩
  rw [named] at named'
  rw [decoded] at decoded'
  exact Prod.ext (Option.some.inj named') (Except.ok.inj decoded')

theorem Tabulates.named {entries : List Entry} {t : Table α} (h : shape.Tabulates entries t) :
    ∀ e ∈ entries, e.name?.isSome := by
  obtain ⟨as, all, -⟩ := h
  refine forall_mem_of_forall₂ all fun e p told => ?_
  rw [told.1]
  rfl

namespace Uniform

theorem follows (h : shape.Uniform height) (room : height ≤ depth) (limit : depth ≤ nestingLimit) :
    Follows (fun (t : Table α) name s =>
      (memberValue (shape.read depth) s).map fun (a, rest) => (t.insert name a, rest)) shape.Tabulates where
  unique := by
    rintro entries t t' ⟨as, all, rfl⟩ ⟨as', all', rfl⟩
    rw [List.right_unique_forall₂' rightUnique_decode all all']
  before := by
    rintro entries more t ⟨as, all, rfl⟩
    obtain ⟨as', -, -, first, -⟩ := forall₂_append_left_iff.1 all
    exact ⟨Table.ofList as', as', first, rfl⟩
  step := by
    rintro entries t next m e name rest after ⟨as, all, rfl⟩ told named - -
    have value : e.value = String.ofList m.item.value := by
      rw [← told.value, String.ofList_toList]
    have split : m.item.text ++ rest = m.item.before ++ (m.item.value ++ (m.item.after ++ rest)) := by
      simp [Item.text]
    have read : ∀ {a : α} {after : List Char},
        memberValue (shape.read depth) (m.gap ++ ':' :: (m.item.text ++ rest)) = .ok (a, after) ↔
          after = m.item.after ++ rest ∧ shape.decode e.value = .ok a := by
      intro a after
      rw [memberValue_gap _ told.spaced.2.1, split, value]
      exact h room limit told.spaced.2.2.1 told.wellFormed
    rw [Except.map_eq_ok_iff]
    constructor
    · rintro ⟨⟨a, after'⟩, taken, same⟩
      obtain ⟨rfl, rfl⟩ := Prod.mk.inj same
      obtain ⟨rfl, decoded⟩ := read.1 taken
      refine ⟨rfl, as ++ [(name, a)], ?_, (Table.ofList_append as (name, a)).symm⟩
      exact List.rel_append all (.cons ⟨named, decoded⟩ .nil)
    · rintro ⟨rfl, all', both, rfl⟩
      obtain ⟨as', last, rfl, all', one⟩ := forall₂_append_left_iff.1 both
      obtain rfl := List.right_unique_forall₂' rightUnique_decode all all'
      obtain ⟨⟨name', a⟩, others, ⟨named', decoded⟩, nothing, rfl⟩ := List.forall₂_cons_left_iff.1 one
      obtain rfl := List.forall₂_nil_left_iff.1 nothing
      obtain rfl : name = name' := Option.some.inj (named.symm.trans named')
      exact ⟨(a, m.item.after ++ rest), read.2 ⟨rfl, decoded⟩, by rw [Table.ofList_append]⟩

/-- An object is decoded as a table exactly if all of its values are decoded, and only blanks follow it. Of two
values of one name the later one is held. -/
theorem table_decode_iff (h : shape.Uniform height) (room : height < nestingLimit)
    {pairs : List (String × String)} {text : String} (object : TableText pairs text) (more : String)
    (t : Table α) :
    (table shape).decode (text ++ more) = .ok t ↔
      Blanks more.toList ∧ ∃ as : List (String × α),
        List.Forall₂ (fun p q => p.1 = q.1 ∧ shape.decode p.2 = .ok q.2) pairs as ∧ t = Table.ofList as := by
  obtain ⟨entries, ⟨before, inside, after, ms, same, hb, ha, parted, told⟩, all⟩ := object
  have stops : ∀ rest t after',
      (table shape).read nestingLimit (text.toList ++ rest) = .ok (t, after') ↔
        after' = after ++ rest ∧ shape.Tabulates entries t := by
    intro rest t after'
    have content : (table shape).read nestingLimit (text.toList ++ rest)
        = close endObject (members (fun (t : Table α) name s =>
            (memberValue (shape.read (nestingLimit - 1)) s).map fun (a, rest) => (t.insert name a, rest))
          .empty (inside ++ '}' :: (after ++ rest))) := by
      have split : text.toList ++ rest = before ++ '{' :: (inside ++ '}' :: (after ++ rest)) := by simp [same]
      rw [split]
      exact container_blanks (by decide) _ _ hb (Nat.succ_le_of_lt room) _
    have follows := h.follows (Nat.le_sub_one_of_lt room) (Nat.sub_le _ _)
    have start : shape.Tabulates [] .empty := ⟨[], .nil, rfl⟩
    rw [content, follows.object_iff start told parted]
    exact and_congr_right' (and_iff_right_of_imp Tabulates.named)
  have wellFormed : ∀ e ∈ entries, WellFormed e.value.toList :=
    forall_mem_of_forall₂ (List.Forall₂.flip told) fun e m means => means.value ▸ means.wellFormed
  -- What is made of the entries is what is made of the pairs, whose texts may have blanks around them.
  have alike : ∀ as : List (String × α),
      List.Forall₂ (fun e q => e.name? = some q.1 ∧ shape.decode e.value = .ok q.2) entries as ↔
        List.Forall₂ (fun p q => p.1 = q.1 ∧ shape.decode p.2 = .ok q.2) pairs as := by
    refine forall₂_congr_of_forall₂ ((List.forall₂_and_left _ _).2 ⟨wellFormed, all⟩) ?_
    rintro e p ⟨wellFormed, named, padded⟩ q
    have decoded := h.decode_padded_iff (Nat.le_of_lt room) wellFormed padded q.2
    rw [String.ofList_toList] at decoded
    rw [named, Option.some.injEq, decoded]
  rw [decode_iff_of_stops ha stops String.toList_append]
  simp only [Tabulates, alike]

end Uniform

end Shape

end Courier.Json
