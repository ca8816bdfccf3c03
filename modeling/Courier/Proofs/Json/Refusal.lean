import Courier.Payload
import Courier.Proofs.Json.Container

set_option autoImplicit false

/-! # The first fault of a document

What is wrong with a part of a container is what is wrong with the container, as long as the parts before it
are read; what stands after it does not matter. Closing the container gives the fault a place and leaves it its
cause. So a text that is refused by the reader of a part (`Refuses`) makes the whole document one that is
refused for the same cause.
-/

namespace Courier.Json

variable {α β σ : Type} {cause : Cause}

/-- The text is refused for the cause, whatever follows that ends the text. -/
def Refuses (scan : List Char → Scan α) (t : List Char) (cause : Cause) : Prop :=
  ∀ rest, EndsPart rest → ∃ place, scan (t ++ rest) = .error ⟨cause, place⟩

theorem Refuses.map {scan : List Char → Scan α} {t : List Char} (h : Refuses scan t cause)
    (f : α × List Char → β × List Char) : Refuses (fun s => (scan s).map f) t cause := by
  intro rest ends
  obtain ⟨place, failed⟩ := h rest ends
  exact ⟨place, congrArg (Except.map f) failed⟩

/-- The fault of the content comes before one of the end, and keeps its cause. -/
theorem close_error (endOf : List Char → Option Cause × List Char) (place : Place) :
    ∃ place', close endOf (.error ⟨cause, place⟩ : Scan α) = .error ⟨cause, place'⟩ := by
  cases place with
  | fixed left => exact ⟨_, rfl⟩
  | pending rest => exact ⟨_, rfl⟩

theorem Shape.decode_of_refuses {shape : Shape α} {t : List Char}
    (h : Refuses (shape.read nestingLimit) t cause) :
    ∃ fault, shape.decode (String.ofList t) = .error (.malformed fault) ∧ fault.cause = cause := by
  obtain ⟨place, failed⟩ := h [] endsPart_nil
  rw [List.append_nil] at failed
  refine ⟨Fault.locate t ⟨cause, place⟩, ?_, rfl⟩
  unfold decode readDocument
  simp only [String.toList_ofList, failed]
  rfl

/-! ## What is written between brackets -/

/-- There is a comma for each part after the first one. -/
theorem length_le_following (newline : List Char) (parts : List (List Char)) :
    parts.length ≤ (following newline parts).length := by
  induction parts with
  | nil => simp
  | cons part parts ih =>
    rw [following_cons]
    simp only [List.length_append, List.length_cons]
    omega

theorem following_append_cons (newline part tail : List Char) (parts more : List (List Char)) :
    following newline (parts ++ part :: more) ++ tail
      = following newline parts ++ ',' :: (newline ++ (part ++ (following newline more ++ tail))) := by
  simp [following]

/-- What is written after a part ends it. -/
theorem endsPart_following {newline tail : List Char} (ends : EndsPart tail) (parts : List (List Char)) :
    EndsPart (following newline parts ++ tail) := by
  cases parts with
  | nil => exact ends
  | cons part parts =>
    rw [following_cons]
    exact endsPart_cons (.inr (.inl rfl)) _

/-! ## Arrays -/

section Items

variable {item : List Char → Scan α} {fuel : Nat} {first : Bool} {acc : List α} {a : α} {s t tail : List Char}

theorem itemsFrom_of_refuses (refuses : Refuses item t cause) (ends : EndsPart tail)
    (found : nextItem first s = .ok (true, t ++ tail)) :
    ∃ place, itemsFrom item (fuel + 1) first acc s = .error ⟨cause, place⟩ := by
  obtain ⟨place, failed⟩ := refuses tail ends
  refine ⟨place, ?_⟩
  rw [itemsFrom, found]
  simp only [failed]

theorem itemsFrom_following {newline : List Char} (blank : Blanks newline) {pairs : List (List Char × α)}
    (taken : ∀ p ∈ pairs, Starts p.1 ∧ Takes item p.1 p.2) (ends : EndsPart tail) :
    itemsFrom item (fuel + pairs.length) false acc (following newline (pairs.map Prod.fst) ++ tail)
      = itemsFrom item fuel false ((pairs.map Prod.snd).reverse ++ acc) tail := by
  induction pairs generalizing acc with
  | nil => rfl
  | cons p pairs ih =>
    obtain ⟨⟨starts, takes⟩, others⟩ := List.forall_mem_cons.1 taken
    have found := @nextItem_comma _ _ _ (following newline (pairs.map Prod.fst) ++ tail) blanks_nil blank starts
    rw [List.map_cons, following_cons, List.length_cons, ← Nat.add_assoc,
      itemsFrom_of_takes takes (endsPart_following ends _) (by simpa using found), ih others]
    simp

theorem itemsFrom_refuses {newline : List Char} (blank : Blanks newline) {pairs : List (List Char × α)}
    (taken : ∀ p ∈ pairs, Starts p.1 ∧ Takes item p.1 p.2) (starts : Starts t)
    (refuses : Refuses item t cause) (ends : EndsPart tail) (enough : pairs.length < fuel) :
    ∃ place, itemsFrom item fuel false acc (following newline (pairs.map Prod.fst) ++ ',' :: (newline ++ (t ++ tail)))
      = .error ⟨cause, place⟩ := by
  obtain ⟨fuel, rfl⟩ : ∃ k, fuel = k + 1 + pairs.length := ⟨fuel - (pairs.length + 1), by omega⟩
  rw [itemsFrom_following blank taken (endsPart_cons (.inr (.inl rfl)) _)]
  exact itemsFrom_of_refuses refuses ends (nextItem_comma blanks_nil blank starts)

/-- The first item that is refused makes the array one that is. -/
theorem items_refuses {layout : Layout} (sound : layout.Sound) (depth : Nat) (rest : List Char)
    {pairs : List (List Char × α)} (taken : ∀ p ∈ pairs, Starts p.1 ∧ Takes item p.1 p.2) (starts : Starts t)
    (refuses : Refuses item t cause) (more : List (List Char)) :
    ∃ s, layout.enclose depth '[' ']' (pairs.map Prod.fst ++ t :: more) ++ rest = '[' :: s ∧
      ∃ place, items item s = .error ⟨cause, place⟩ := by
  have blank := sound.newline (depth + 1)
  have ends : EndsPart (following (layout.newline (depth + 1)) more ++ (layout.newline depth ++ ']' :: rest)) :=
    endsPart_following (endsPart_blanks (sound.newline depth) (.inr (.inl rfl)) rest) more
  have fault : ∀ s, (∃ place, itemsFrom item (s.length + 1) true [] s = .error ⟨cause, place⟩) →
      ∃ place, items item s = .error ⟨cause, place⟩ := by
    rintro s ⟨place, failed⟩
    unfold items
    rw [failed]
    exact close_error _ place
  cases pairs with
  | nil =>
    refine ⟨_, enclose_cons_append .., fault _ ?_⟩
    exact itemsFrom_of_refuses refuses ends (nextItem_first blank starts)
  | cons p pairs =>
    obtain ⟨⟨starts', takes⟩, others⟩ := List.forall_mem_cons.1 taken
    rw [List.map_cons, List.cons_append]
    refine ⟨_, enclose_cons_append .., fault _ ?_⟩
    have behind := endsPart_cons (.inr (.inl rfl))
    rw [following_append_cons,
      itemsFrom_of_takes takes (endsPart_following (behind _) _) (nextItem_first blank starts')]
    refine itemsFrom_refuses blank others starts refuses ends ?_
    -- The text outlasts the items that go by.
    have commas := length_le_following (layout.newline (depth + 1)) (pairs.map Prod.fst)
    simp only [List.length_map, List.length_append, List.length_cons] at commas ⊢
    omega

end Items

/-! ## Objects -/

section Members

variable {member : σ → String → List Char → Scan σ} {state next final : σ} {name : String} {t : List Char}

/-- The text of a member: a literal of its name, and the rest of it, which is refused. -/
def Stumbles (member : σ → String → List Char → Scan σ) (state : σ) (name : String) (t : List Char)
    (cause : Cause) : Prop :=
  ∃ literal value, t = '"' :: (literal ++ value) ∧
    (∀ rest, Literal.read (literal ++ rest) = .ok (name, rest)) ∧ Refuses (member state name) value cause

variable {fuel : Nat} {first : Bool} {s u tail : List Char}

theorem membersFrom_of_stumbles (stumbles : Stumbles member state name ('"' :: u) cause) (ends : EndsPart tail)
    (found : nextName first s = memberName '"' (u ++ tail)) :
    ∃ place, membersFrom member (fuel + 1) first state s = .error ⟨cause, place⟩ := by
  obtain ⟨literal, value, same, named, refuses⟩ := stumbles
  obtain rfl := (List.cons.inj same).2
  obtain ⟨place, failed⟩ := refuses tail ends
  refine ⟨place, ?_⟩
  rw [membersFrom, found, memberName, if_pos rfl, List.append_assoc, named]
  simp only [Except.map, failed]

theorem Stumbles.quote (h : Stumbles member state name t cause) : ∃ u, t = '"' :: u := by
  obtain ⟨literal, value, same, -⟩ := h
  exact ⟨_, same⟩

theorem membersFrom_following {newline : List Char} (blank : Blanks newline) {parts : List (String × List Char)}
    (chain : Chain member state parts final) (ends : EndsPart tail) :
    membersFrom member (fuel + parts.length) false state (following newline (parts.map Prod.snd) ++ tail)
      = membersFrom member fuel false final tail := by
  induction chain with
  | nil => rfl
  | @cons state next final name t parts advances _ ih =>
    obtain ⟨u, rfl⟩ := advances.quote
    have found := @nextName_comma _ _ (u ++ (following newline (parts.map Prod.snd) ++ tail)) blanks_nil blank
    rw [List.map_cons, following_cons, List.length_cons, ← Nat.add_assoc,
      membersFrom_of_advances advances (endsPart_following ends _) (by simpa using found)]
    exact ih

/-- After members that are taken, one that is refused is the fault. -/
theorem membersFrom_stumbles {newline : List Char} (blank : Blanks newline) {parts : List (String × List Char)}
    (chain : Chain member state parts final) (stumbles : Stumbles member final name t cause)
    (ends : EndsPart tail) (enough : parts.length < fuel) :
    ∃ place, membersFrom member fuel false state
        (following newline (parts.map Prod.snd) ++ ',' :: (newline ++ (t ++ tail))) = .error ⟨cause, place⟩ := by
  obtain ⟨fuel, rfl⟩ : ∃ k, fuel = k + 1 + parts.length := ⟨fuel - (parts.length + 1), by omega⟩
  obtain ⟨u, rfl⟩ := stumbles.quote
  rw [membersFrom_following blank chain (endsPart_cons (.inr (.inl rfl)) _)]
  exact membersFrom_of_stumbles stumbles ends (nextName_comma blanks_nil blank)

/-- The first member that is refused makes the object one that is. -/
theorem members_stumbles {layout : Layout} (sound : layout.Sound) (depth : Nat) (rest : List Char)
    {parts : List (String × List Char)} (chain : Chain member state parts final)
    (stumbles : Stumbles member final name t cause) (more : List (List Char)) :
    ∃ s, layout.enclose depth '{' '}' (parts.map Prod.snd ++ t :: more) ++ rest = '{' :: s ∧
      ∃ place, members member state s = .error ⟨cause, place⟩ := by
  have blank := sound.newline (depth + 1)
  have ends : EndsPart (following (layout.newline (depth + 1)) more ++ (layout.newline depth ++ '}' :: rest)) :=
    endsPart_following (endsPart_blanks (sound.newline depth) (.inr (.inr rfl)) rest) more
  unfold members
  cases chain with
  | nil =>
    obtain ⟨u, rfl⟩ := stumbles.quote
    refine ⟨_, enclose_cons_append .., ?_⟩
    exact membersFrom_of_stumbles stumbles ends (nextName_first blank)
  | @cons _ next _ name' t' parts advances chain =>
    obtain ⟨u, rfl⟩ := advances.quote
    rw [List.map_cons, List.cons_append]
    refine ⟨_, enclose_cons_append .., ?_⟩
    have behind := endsPart_cons (.inr (.inl rfl))
    rw [following_append_cons, List.cons_append,
      membersFrom_of_advances advances (endsPart_following (behind _) _) (nextName_first blank)]
    refine membersFrom_stumbles blank chain stumbles ends ?_
    have commas := length_le_following (layout.newline (depth + 1)) (parts.map Prod.snd)
    simp only [List.length_map, List.length_append, List.length_cons] at commas ⊢
    omega

end Members

end Courier.Json
