import Courier.Proofs.Json.RecordRefusal
import Courier.Proofs.Lists
import Courier.Proofs.Payload

set_option autoImplicit false

/-! # Documents of any content

A value of integers, texts and containers comes back from the text that is written for it, as long as its
containers are not nested too deeply (`Json.Tree.Plain.takes`); if they are, the text is refused at the first
bracket that is one too many (`Json.Tree.Plain.rejects`). The writer has no such limit. Doubles are left out here:
the reader rounds them more than once, and may miss the one that was written.
-/

namespace Courier

open Json

namespace Json.Tree

/-! ## Values and their depth -/

/-- No number of the value is a double, and the members of each object stand in the order of their names, each
name once. -/
inductive Plain : Value → Prop where
  | null : Plain .null
  | boolean (b : Bool) : Plain (.boolean b)
  | integer (n : Int) (inRange : Number.InRange n) : Plain (.number (.integer n inRange))
  | string (s : String) : Plain (.string s)
  | array {items : List Value} (plain : ∀ item ∈ items, Plain item) : Plain (.array items)
  | object {members : List (String × Value)} (inOrder : InOrder members) (plain : ∀ p ∈ members, Plain p.2) :
    Plain (.object members)

variable {κ : Type}

theorem depthOfItems_le_iff {items : List (Tree κ)} {d : Nat} :
    depth.depthOfItems items ≤ d ↔ ∀ item ∈ items, item.depth ≤ d := by
  induction items with
  | nil => simp [depth.depthOfItems]
  | cons item items ih => rw [depth.depthOfItems, Nat.max_le, ih, List.forall_mem_cons]

theorem depthOfMembers_le_iff {members : List (κ × Tree κ)} {d : Nat} :
    depth.depthOfMembers members ≤ d ↔ ∀ p ∈ members, p.2.depth ≤ d := by
  induction members with
  | nil => simp [depth.depthOfMembers]
  | cons p members ih =>
    obtain ⟨name, item⟩ := p
    rw [depth.depthOfMembers, Nat.max_le, ih, List.forall_mem_cons]

theorem depth_array_le_iff {items : List (Tree κ)} {d : Nat} :
    (Tree.array items).depth ≤ d + 1 ↔ ∀ item ∈ items, item.depth ≤ d := by
  rw [depth, Nat.add_le_add_iff_right, depthOfItems_le_iff]

theorem depth_object_le_iff {members : List (κ × Tree κ)} {d : Nat} :
    (Tree.object members).depth ≤ d + 1 ↔ ∀ p ∈ members, p.2.depth ≤ d := by
  rw [depth, Nat.add_le_add_iff_right, depthOfMembers_le_iff]

theorem exists_first_deep_item {items : List (Tree κ)} {d : Nat} (deep : d + 1 < (Tree.array items).depth) :
    ∃ before item after, items = before ++ item :: after ∧ (∀ i ∈ before, i.depth ≤ d) ∧ d < item.depth := by
  have within : ∃ item ∈ items, d < item.depth := by
    by_contra! shallow
    exact absurd (depth_array_le_iff.2 shallow) (Nat.not_le.2 deep)
  obtain ⟨before, item, after, split, shallow, deep⟩ := exists_first within
  exact ⟨before, item, after, split, fun i hi => Nat.not_lt.1 (shallow i hi), deep⟩

theorem exists_first_deep_member {members : List (κ × Tree κ)} {d : Nat}
    (deep : d + 1 < (Tree.object members).depth) :
    ∃ before p after, members = before ++ p :: after ∧ (∀ q ∈ before, q.2.depth ≤ d) ∧ d < p.2.depth := by
  have within : ∃ p ∈ members, d < p.2.depth := by
    by_contra! shallow
    exact absurd (depth_object_le_iff.2 shallow) (Nat.not_le.2 deep)
  obtain ⟨before, p, after, split, shallow, deep⟩ := exists_first within
  exact ⟨before, p, after, split, fun q hq => Nat.not_lt.1 (shallow q hq), deep⟩

end Json.Tree

namespace Json

/-! ## Reading any value -/

variable {layout : Layout} {blanks : List Char}

theorem readValue_integer (hb : Blanks blanks) (depth : Nat) (n : Int) (inRange : Number.InRange n) :
    Takes (readValue depth) (blanks ++ Number.integerText n) (.number (.integer n inRange)) := by
  intro rest ends
  have bound : n.natAbs < 0x10000000000000000 := by omega
  -- A numeral is read for the integer whose sign and whose digits it has.
  have told : ∀ negative : Bool, (if negative then -(n.natAbs : Int) else n.natAbs) = n →
      ¬(negative = true ∧ n.natAbs = 0) →
        Numeral.read negative (Decimal.digits n.natAbs ++ rest) = .ok (.integer n inRange, rest) := by
    intro negative signed nonzero
    have read := Numeral.read_digits bound (signed.symm ▸ inRange) nonzero ends
    simpa only [signed] using read
  unfold Number.integerText
  by_cases negative : n < 0
  · rw [if_pos negative, List.append_assoc, List.cons_append, readValue, Shape.afterSpace_blanks hb (by decide)]
    simp only [Char.reduceEq, if_false, if_true, told true (by rw [if_pos rfl]; omega) (by omega)]
    rfl
  · obtain ⟨c, ds, begins, digit, -⟩ := Decimal.digits_eq_cons n.natAbs
    have other : ∀ d : Char, d.isDigit = false → c ≠ d := fun d => Decimal.ne_of_isDigit digit
    have read := told false (by simp; omega) (by simp)
    rw [begins, List.cons_append] at read
    rw [if_neg negative, begins, List.append_assoc, List.cons_append, readValue,
      Shape.afterSpace_blanks hb (not_isSpace_of_isDigit digit), if_neg (other _ (by decide)),
      if_neg (other _ (by decide)), if_neg (other _ (by decide)), if_neg (other _ (by decide)), if_pos digit, read]
    rfl

theorem readValue_string (hb : Blanks blanks) (depth : Nat) (s : String) :
    Takes (readValue depth) (blanks ++ textLiteral s) (.string s) := by
  intro rest _
  rw [textLiteral, List.append_assoc, List.cons_append, readValue, Shape.afterSpace_blanks hb (by decide),
    List.append_assoc]
  simp only [Char.reduceEq, if_false, if_true]
  rw [if_neg (by decide), List.cons_append, List.nil_append, Literal.read_flatMap_escape]
  rfl

theorem readValue_array (hb : Blanks blanks) (depth : Nat) (s : List Char) :
    readValue (depth + 1) (blanks ++ '[' :: s)
      = (items (readValue depth) s).map fun (items, rest) => (.array items, rest) := by
  rw [readValue, Shape.afterSpace_blanks hb (by decide)]
  rfl

theorem readValue_object (hb : Blanks blanks) (depth : Nat) (s : List Char) :
    readValue (depth + 1) (blanks ++ '{' :: s)
      = (close endObject (members (fun (entries : List (String × Value)) name s =>
          (memberValue (readValue depth) s).map fun (v, rest) => (insertEntry name v entries, rest)) [] s)).map
          fun (entries, rest) => (.object entries, rest) := by
  rw [readValue, Shape.afterSpace_blanks hb (by decide)]
  rfl

/-- When no container may be opened any more, none is. -/
theorem rejects_enclose {first : Char} (opens : first = '[' ∨ first = '{') (level : Nat) (last : Char)
    (parts : List (List Char)) :
    Shape.value.Rejects 0 (layout.enclose level first last parts) .recursionLimit := by
  intro blanks hb rest _
  obtain ⟨t, begins⟩ := layout.exists_enclose level first last parts
  show ∃ place, readValue 0 _ = _
  rw [begins, List.append_assoc, List.cons_append]
  rcases opens with rfl | rfl
  all_goals
    rw [readValue, Shape.afterSpace_blanks hb (by decide)]
    exact ⟨_, rfl⟩

/-! ## Reading what has been written -/

/-- Each item with its text, as the loop over the items takes them. -/
theorem taken_items {depth level : Nat} {items : List Value}
    (takes : ∀ item ∈ items, Takes (readValue depth) (item.render layout level) item) :
    ∀ p ∈ items.map fun item => (item.render layout level, item),
      Starts p.1 ∧ Takes (readValue depth) p.1 p.2 := by
  intro p hp
  obtain ⟨item, mem, rfl⟩ := List.mem_map.1 hp
  exact ⟨Tree.starts_render .., takes item mem⟩

/-- Members in the order of their names are put one after the other. -/
theorem chain_inOrder {read : List Char → Scan Value} {level : Nat} (done todo : List (String × Value))
    (taken : ∀ p ∈ todo, Takes (memberValue read) (layout.colon ++ p.2.render layout level) p.2)
    (inOrder : InOrder (done ++ todo)) :
    Chain (fun (entries : List (String × Value)) name s =>
        (memberValue read s).map fun (v, rest) => (insertEntry name v entries, rest))
      done (todo.map fun p => (p.1, Tree.renderMember layout level p)) (done ++ todo) := by
  induction todo generalizing done with
  | nil =>
    rw [List.append_nil]
    exact .nil
  | cons p todo ih =>
    obtain ⟨first, others⟩ := List.forall_mem_cons.1 taken
    have above : ∀ q ∈ done, q.1 < p.1 :=
      fun q hq => (List.pairwise_append.1 inOrder).2.2 q hq p List.mem_cons_self
    have next := ih (done ++ [p]) others (by simpa using inOrder)
    rw [List.append_assoc, List.singleton_append, ← Shape.insertEntry_last p.2 above] at next
    refine .cons (Shape.advances_renderMember fun rest ends => ?_) next
    simp only [first rest ends]
    rfl

end Json

namespace Json.Tree.Plain

variable {layout : Layout} (sound : layout.Sound)

include sound

theorem takes {v : Value} (plain : v.Plain) {depth : Nat} (room : v.depth ≤ depth) (level : Nat)
    {blanks : List Char} (hb : Blanks blanks) :
    Takes (readValue depth) (blanks ++ v.render layout level) v := by
  induction plain generalizing depth level blanks with
  | null =>
    intro rest _
    rw [List.append_assoc, render, List.cons_append, readValue, Shape.afterSpace_blanks hb (by decide)]
    rfl
  | boolean b =>
    intro rest _
    cases b
    all_goals
      rw [List.append_assoc, render, List.cons_append, readValue, Shape.afterSpace_blanks hb (by decide)]
      rfl
  | integer n inRange => exact readValue_integer hb depth n inRange
  | string s => exact readValue_string hb depth s
  | @array items plain ih =>
    obtain ⟨depth, rfl⟩ : ∃ k, depth = k + 1 := ⟨depth - 1, by simp only [Tree.depth] at room; omega⟩
    intro rest _
    -- One container is open now, so each item has room for one less.
    have taken := taken_items fun item mem =>
      ih item mem (depth_array_le_iff.1 room item mem) (level + 1) blanks_nil
    obtain ⟨s, hs, all⟩ := allItems_enclose sound level rest _ taken
    have written : (Tree.array items).render layout level ++ rest = '[' :: s := by
      rw [← hs, render_array, List.map_map]
      rfl
    rw [List.append_assoc, written, readValue_array hb, items_allItems all, List.map_map]
    exact congrArg (fun items => Except.ok (Tree.array items, rest)) (List.map_id items)
  | @object members inOrder plain ih =>
    obtain ⟨depth, rfl⟩ : ∃ k, depth = k + 1 := ⟨depth - 1, by simp only [Tree.depth] at room; omega⟩
    intro rest _
    have taken : ∀ p ∈ members, Takes (memberValue (readValue depth))
        (layout.colon ++ p.2.render layout (level + 1)) p.2 :=
      fun p mem => sound.takes_memberValue fun _ hb =>
        ih p mem (depth_object_le_iff.1 room p mem) (level + 1) hb
    obtain ⟨s, hs, all⟩ := allMembers_enclose sound level rest (chain_inOrder [] members taken inOrder)
    have written : (Tree.object members).render layout level ++ rest = '{' :: s := by
      rw [← hs, render_object, List.map_map]
      rfl
    rw [List.append_assoc, written, readValue_object hb, members_allMembers all]
    simp only [close, endObject_close]
    rfl

/-- What is written for a value is refused if more containers are in it than may be opened. The containers before
the one that is too deep are read, and what comes after it is not. -/
theorem rejects {v : Value} (plain : v.Plain) {depth : Nat} (deep : depth < v.depth) (level : Nat) :
    Shape.value.Rejects depth (v.render layout level) .recursionLimit := by
  induction plain generalizing depth level with
  | null | boolean | integer | string => exact absurd deep (Nat.not_lt_zero depth)
  | @array items plain ih =>
    cases depth with
    | zero => exact rejects_enclose (.inl rfl) level _ _
    | succ depth =>
      intro blanks hb rest _
      obtain ⟨before, item, after, rfl, shallow, deep⟩ := exists_first_deep_item deep
      have taken := taken_items fun item mem =>
        (plain item (List.mem_append_left _ mem)).takes sound (shallow item mem) (level + 1) blanks_nil
      have refuses := ih item List.mem_append_cons_self deep (level + 1) [] blanks_nil
      obtain ⟨s, hs, place, failed⟩ := items_refuses sound level rest taken (starts_render ..) refuses
        (after.map (render layout (level + 1)))
      have written : (Tree.array (before ++ item :: after)).render layout level ++ rest = '[' :: s := by
        rw [← hs, render_array, List.map_append, List.map_cons, List.map_map]
        rfl
      refine ⟨place, ?_⟩
      show readValue (depth + 1) _ = _
      rw [List.append_assoc, written, readValue_array hb, failed]
      rfl
  | @object members inOrder plain ih =>
    cases depth with
    | zero => exact rejects_enclose (.inr rfl) level _ _
    | succ depth =>
      intro blanks hb rest _
      obtain ⟨before, p, after, rfl, shallow, deep⟩ := exists_first_deep_member deep
      have taken : ∀ q ∈ before, Takes (memberValue (readValue depth))
          (layout.colon ++ q.2.render layout (level + 1)) q.2 :=
        fun q mem => sound.takes_memberValue fun _ hb =>
          (plain q (List.mem_append_left _ mem)).takes sound (shallow q mem) (level + 1) hb
      have chain := chain_inOrder [] before taken (inOrder.sublist (List.sublist_append_left ..))
      have refuses := (ih p List.mem_append_cons_self deep (level + 1)).memberValue sound
      obtain ⟨s, hs, place, failed⟩ := members_stumbles sound level rest chain
        (Shape.stumbles_renderMember (refuses.map fun (v, rest) => (insertEntry p.1 v before, rest)))
        (after.map (renderMember layout (level + 1)))
      have written : (Tree.object (before ++ p :: after)).render layout level ++ rest = '{' :: s := by
        rw [← hs, render_object, List.map_append, List.map_cons, List.map_map]
        rfl
      obtain ⟨place', closed⟩ := close_error endObject place
      refine ⟨place', ?_⟩
      show readValue (depth + 1) _ = _
      rw [List.append_assoc, written, readValue_object hb, failed, closed]
      rfl

end Json.Tree.Plain

/-- Any value without doubles is written, and the text is decoded as the value and as no other one, if and only if
no more than 127 arrays and objects are inside one another. If there are more, that is the fault of the text. -/
theorem documents_decoded {v : Value} (plain : v.Plain) :
    (Draft.ofValue v).encode = .ok v.wide ∧
    (∀ w, Shape.value.decode v.wide = .ok w ↔ w = v ∧ v.depth ≤ 127) ∧
    (127 < v.depth → ∃ fault, Shape.value.decode v.wide = .error (.malformed fault) ∧
      fault.cause = .recursionLimit) := by
  have fits (room : v.depth ≤ 127) : Shape.value.decode v.wide = .ok v :=
    Shape.decode_of_takes (plain.takes Layout.sound_wide room 0 blanks_nil)
  have fails (deep : 127 < v.depth) : ∃ fault, Shape.value.decode v.wide = .error (.malformed fault) ∧
      fault.cause = .recursionLimit :=
    Shape.decode_of_refuses (plain.rejects Layout.sound_wide deep 0 [] blanks_nil)
  refine ⟨Draft.encode_ofValue v, fun w => ?_, fails⟩
  constructor
  · intro decoded
    rcases Nat.lt_or_ge 127 v.depth with deep | room
    · obtain ⟨fault, failed, -⟩ := fails deep
      rw [failed] at decoded
      cases decoded
    · rw [fits room] at decoded
      exact ⟨(Except.ok.inj decoded).symm, room⟩
  · rintro ⟨rfl, room⟩
    exact fits room

/-- The integers at both ends of 64 bits and a text that is written with an escape, in an object inside 126 arrays
and inside 127. -/
theorem documents_decoded_at_limit :
    let object : Value := .object [("least", .number (.integer (-0x8000000000000000) (by decide))),
      ("most", .number (.integer 0xffffffffffffffff (by decide))), ("text", .string "\"\n")]
    let nested (n : Nat) : Value := (fun v => Tree.array [v])^[n] object
    ((nested 126).Plain ∧ Shape.value.decode (nested 126).wide = .ok (nested 126)) ∧
      (nested 127).Plain ∧ ∃ fault, Shape.value.decode (nested 127).wide = .error (.malformed fault) := by
  intro object nested
  have outer : ∀ n, nested (n + 1) = .array [nested n] := fun n => Function.iterate_succ_apply' _ n object
  have plain : ∀ n, (nested n).Plain := by
    intro n
    induction n with
    | zero =>
      refine .object (by unfold InOrder; decide) ?_
      simp only [List.forall_mem_cons]
      exact ⟨.integer .., .integer .., .string _, fun _ none => absurd none List.not_mem_nil⟩
    | succ n ih =>
      rw [outer]
      exact .array (by simpa using ih)
  have depth : ∀ n, (nested n).depth = n + 1 := by
    intro n
    induction n with
    | zero => rfl
    | succ n ih =>
      rw [outer, Tree.depth, Tree.depth.depthOfItems, ih]
      rfl
  obtain ⟨-, decoded, -⟩ := documents_decoded (plain 126)
  obtain ⟨-, -, refused⟩ := documents_decoded (plain 127)
  obtain ⟨fault, failed, -⟩ := refused (by rw [depth]; decide)
  exact ⟨⟨plain 126, (decoded _).2 ⟨rfl, by rw [depth]⟩⟩, plain 127, fault, failed⟩

end Courier
