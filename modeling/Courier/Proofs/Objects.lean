import Courier.Proofs.Json.Object
import Courier.Repository
import Courier.Settings

set_option autoImplicit false

/-! # Objects as repositories, users and settings

An object is decoded as a record whatever the order and the spelling of its members are, blanks and members
that no field is named for included. What matters is told by the names that fields have (`Known`): whether the
name may be left out, and which values it may have. The records are told here by these names and by what
stands for a member that is left out, and not by the tables that their readers go by.
-/

namespace Courier

open Json

namespace Json

def Named (entries : List Entry) : Prop := ∀ e ∈ entries, e.name?.isSome

/-- The text is decoded as some data of the shape. -/
def Shape.Accepts {α : Type} (shape : Shape α) (value : String) : Prop := ∃ a, shape.decode value = .ok a

/-- A name that a field has: whether a member of it must be there, and which values are of the field. -/
structure Known where
  name : String
  required : Bool
  accepts : String → Prop

/-- The members of the name are as they have to be: no more than one, one if it is required, and with a value
of the field. -/
structure Known.Fits (k : Known) (entries : List Entry) : Prop where
  once : (valuesUnder k.name entries).length ≤ 1
  present : k.required = true → valuesUnder k.name entries ≠ []
  accepted : ∀ value ∈ valuesUnder k.name entries, k.accepts value

/-- How objects are decoded: `given` tells what the members of the known names give. -/
structure DecodesObjects {α : Type} (shape : Shape α) (known : List Known) (given : List Entry → α → Prop) :
    Prop where
  decoded : ∀ {entries text}, ObjectText entries text → Named entries →
    ∀ a, shape.decode text = .ok a ↔ given entries a
  succeeds : ∀ {entries text}, ObjectText entries text → Named entries → (∀ k ∈ known, k.Fits entries) →
    ∃ a, shape.decode text = .ok a
  alike : ∀ {entries entries' text text'}, ObjectText entries text → ObjectText entries' text' →
    Named entries → Named entries' →
    (∀ k ∈ known, valuesUnder k.name entries = valuesUnder k.name entries') →
    ∀ a, shape.decode text = .ok a ↔ shape.decode text' = .ok a
  fails : ∀ {entries text}, ObjectText entries text → (¬Named entries ∨ ∃ k ∈ known, ¬k.Fits entries) →
    ∃ fault, shape.decode text = .error (.malformed fault)

/-! ## Fields and their names -/

def Field.known {α : Type} (field : Field α) : Known :=
  ⟨field.name, field.absence.inObject?.isNone, field.shape.Accepts⟩

theorem Field.fits_iff {α : Type} (field : Field α) (entries : List Entry) :
    field.known.Fits entries ↔
      ∃ a, DecodedUnder entries field.name field.shape field.absence.inObject? a := by
  have told : field.known.Fits entries ↔ (valuesUnder field.name entries).length ≤ 1 ∧
      (field.absence.inObject?.isNone = true → valuesUnder field.name entries ≠ []) ∧
      ∀ value ∈ valuesUnder field.name entries, field.shape.Accepts value :=
    ⟨fun h => ⟨h.once, h.present, h.accepted⟩, fun h => ⟨h.1, h.2.1, h.2.2⟩⟩
  rw [told]
  unfold DecodedUnder
  match valuesUnder field.name entries with
  | [] =>
    cases field.absence.inObject? with
    | none => simp
    | some a => simp
  | [value] => simp [Shape.Accepts]
  | value :: value' :: others => simp

namespace Fields

def known {types : List Type} : Fields types → List Known
  | .nil => []
  | .cons field fields => field.known :: fields.known

variable {types : List Type}

theorem fits_iff (fields : Fields types) (entries : List Entry) :
    (∀ k ∈ fields.known, k.Fits entries) ↔ ∃ row, fields.RowFrom entries row := by
  induction fields with
  | nil =>
    constructor
    · intro _
      exact ⟨(), trivial⟩
    · intro _ k hk
      exact absurd hk List.not_mem_nil
  | cons field fields ih =>
    rw [known, List.forall_mem_cons, field.fits_iff, ih]
    constructor
    · rintro ⟨⟨a, first⟩, row, others⟩
      exact ⟨(a, row), first, others⟩
    · rintro ⟨⟨a, row⟩, first, others⟩
      exact ⟨⟨a, first⟩, row, others⟩

/-- Only the members of the known names matter. -/
theorem rowFrom_congr {fields : Fields types} {entries entries' : List Entry}
    (same : ∀ k ∈ fields.known, valuesUnder k.name entries = valuesUnder k.name entries') (row : Row types) :
    fields.RowFrom entries row ↔ fields.RowFrom entries' row := by
  induction fields with
  | nil => exact Iff.rfl
  | cons field fields ih =>
    obtain ⟨a, row⟩ := row
    obtain ⟨first, others⟩ := List.forall_mem_cons.1 same
    have first : valuesUnder field.name entries = valuesUnder field.name entries' := first
    have gives : DecodedUnder entries field.name field.shape field.absence.inObject? a ↔
        DecodedUnder entries' field.name field.shape field.absence.inObject? a := by
      unfold DecodedUnder
      rw [first]
    exact and_congr gives (ih others row)

end Fields

theorem Record.decodesObjects {α : Type} {record : Record α}
    (h : record.fields.Ready (nestingLimit - 1)) {given : List Entry → α → Prop}
    (build : ∀ entries a, (∃ row, record.fields.RowFrom entries row ∧ record.build row = a) ↔ given entries a) :
    DecodesObjects record.shape record.fields.known given where
  decoded object named a := by
    rw [record.decode_object_iff h object, build]
    exact and_iff_right named
  succeeds object named fits := by
    obtain ⟨row, rows⟩ := (record.fields.fits_iff _).1 fits
    exact ⟨_, (record.decode_object_iff h object _).2 ⟨named, row, rows, rfl⟩⟩
  alike object object' named named' same a := by
    rw [record.decode_object_iff h object, record.decode_object_iff h object']
    simp only [Fields.rowFrom_congr same]
    exact and_congr_left' (iff_of_true named named')
  fails object wrong := by
    apply Shape.decode_eq_malformed
    intro a decoded
    obtain ⟨named, row, rows, -⟩ := (record.decode_object_iff h object a).1 decoded
    rcases wrong with unnamed | ⟨k, hk, unfit⟩
    · exact unnamed named
    · exact unfit ((record.fields.fits_iff _).2 ⟨row, rows⟩ k hk)

/-! ## The records -/

namespace Shape

theorem repository_ready_at {depth : Nat} (limit : depth ≤ nestingLimit) : Repository.record.fields.Ready depth :=
  have texts : text.AsDocument depth := text_local.asDocument (Nat.zero_le _) limit
  .cons texts (by decide) <| .cons texts (by decide) <| .cons texts (by decide) <|
    .cons (instant_local.asDocument (Nat.zero_le _) limit) (by decide) <|
    .cons ((optional_local instant_local).asDocument (Nat.zero_le _) limit) (by decide) <|
    .cons (flag_local.asDocument (Nat.zero_le _) limit) (by decide) .nil

/-- The list of a user takes room for one container. -/
theorem user_ready_at {depth : Nat} (room : 1 ≤ depth) (limit : depth ≤ nestingLimit) :
    User.record.fields.Ready depth :=
  .cons (text_local.asDocument (Nat.zero_le _) limit) (by decide) <|
    .cons ((optional_local text_local).asDocument (Nat.zero_le _) limit) (by decide) <|
    .cons (flag_local.asDocument (Nat.zero_le _) limit) (by decide) <|
    .cons ((list_local text_local).asDocument room limit) (by decide) .nil

theorem repository_ready : Repository.record.fields.Ready (nestingLimit - 1) := repository_ready_at (by decide)

theorem user_ready : User.record.fields.Ready (nestingLimit - 1) := user_ready_at (by decide) (by decide)

/-- A policy may be given as an object, which takes room for one container. -/
theorem settings_ready_at {depth : Nat} (room : 1 ≤ depth) (limit : depth ≤ nestingLimit) :
    Settings.record.fields.Ready depth :=
  have naturals : natural.AsDocument depth := natural_local.asDocument (Nat.zero_le _) limit
  .cons naturals (by decide) <| .cons naturals (by decide) <|
    .cons ((choice_local Trust.choices).asDocument room limit) (by decide) <|
    .cons ((optional_local text_local).asDocument (Nat.zero_le _) limit) (by decide) .nil

theorem settings_ready : Settings.record.fields.Ready (nestingLimit - 1) := settings_ready_at (by decide) (by decide)

end Shape

theorem blanks_space : Blanks [' '] := by
  intro c hc
  rw [List.mem_singleton.1 hc]
  rfl

theorem wellFormed_letter : WellFormed "\"a\"".toList :=
  .literal (s := ['a']) (.plain (by decide) (by decide) (by decide) .nil)

end Json

/-- Repositories, users and settings are decoded from objects with members of any order, spelling and number:
each field has the value of the member of its name, or what stands for it if there is none. -/
theorem objects_decoded :
    DecodesObjects Shape.repository
      [⟨"name", true, Shape.text.Accepts⟩, ⟨"description", false, Shape.text.Accepts⟩,
        ⟨"owner", false, Shape.text.Accepts⟩, ⟨"lastChange", true, Shape.instant.Accepts⟩,
        ⟨"createdAt", false, (Shape.optional .instant).Accepts⟩, ⟨"frozen", false, Shape.flag.Accepts⟩]
      (fun entries r => DecodedUnder entries "name" .text none r.name ∧
        DecodedUnder entries "description" .text (some "") r.description ∧
        DecodedUnder entries "owner" .text (some "") r.owner ∧
        DecodedUnder entries "lastChange" .instant none r.lastChange ∧
        DecodedUnder entries "createdAt" (.optional .instant) (some none) r.createdAt ∧
        DecodedUnder entries "frozen" .flag (some false) r.frozen) ∧
    DecodesObjects Shape.user
      [⟨"username", true, Shape.text.Accepts⟩, ⟨"displayName", false, (Shape.optional .text).Accepts⟩,
        ⟨"canAdmin", false, Shape.flag.Accepts⟩, ⟨"repositories", false, (Shape.list .text).Accepts⟩]
      (fun entries u => DecodedUnder entries "username" .text none u.username ∧
        DecodedUnder entries "displayName" (.optional .text) (some none) u.displayName ∧
        DecodedUnder entries "canAdmin" .flag (some false) u.canAdmin ∧
        DecodedUnder entries "repositories" (.list .text) (some []) u.repositories) ∧
    DecodesObjects Shape.settings
      [⟨"connect_timeout_secs", false, Shape.natural.Accepts⟩, ⟨"timeout_secs", false, Shape.natural.Accepts⟩,
        ⟨"trust", false, Shape.trust.Accepts⟩, ⟨"user_agent", false, (Shape.optional .text).Accepts⟩]
      (fun entries s => DecodedUnder entries "connect_timeout_secs" .natural (some 10) s.connectLimit ∧
        DecodedUnder entries "timeout_secs" .natural (some 30) s.callLimit ∧
        DecodedUnder entries "trust" .trust (some .trustAll) s.trust ∧
        DecodedUnder entries "user_agent" (.optional .text) (some none) s.agent) := by
  refine ⟨?_, ?_, ?_⟩
  · refine Repository.record.decodesObjects Shape.repository_ready ?_
    intro entries r
    constructor
    · rintro ⟨⟨name, description, owner, lastChange, createdAt, frozen, ⟨⟩⟩, ⟨h₁, h₂, h₃, h₄, h₅, h₆, -⟩, rfl⟩
      exact ⟨h₁, h₂, h₃, h₄, h₅, h₆⟩
    · rintro ⟨h₁, h₂, h₃, h₄, h₅, h₆⟩
      exact ⟨Repository.record.row r, ⟨h₁, h₂, h₃, h₄, h₅, h₆, trivial⟩, rfl⟩
  · refine User.record.decodesObjects Shape.user_ready ?_
    intro entries u
    constructor
    · rintro ⟨⟨username, displayName, canAdmin, repositories, ⟨⟩⟩, ⟨h₁, h₂, h₃, h₄, -⟩, rfl⟩
      exact ⟨h₁, h₂, h₃, h₄⟩
    · rintro ⟨h₁, h₂, h₃, h₄⟩
      exact ⟨User.record.row u, ⟨h₁, h₂, h₃, h₄, trivial⟩, rfl⟩
  · refine Settings.record.decodesObjects Shape.settings_ready ?_
    intro entries s
    constructor
    · rintro ⟨⟨connectLimit, callLimit, trust, agent, ⟨⟩⟩, ⟨h₁, h₂, h₃, h₄, -⟩, rfl⟩
      exact ⟨h₁, h₂, h₃, h₄⟩
    · rintro ⟨h₁, h₂, h₃, h₄⟩
      exact ⟨Settings.record.row s, ⟨h₁, h₂, h₃, h₄, trivial⟩, rfl⟩

/-- A user whose name is spelled with an escape, after a member of another name whose value holds half of a
character. -/
theorem objects_decoded_after_another :
    ObjectText [⟨some "x", "[\"\\ud800\"]"⟩, ⟨some "username", "\"a\""⟩]
        "\x7b\"x\":[\"\\ud800\"], \"user\\u006eame\": \"a\"\x7d" ∧
      Named [⟨some "x", "[\"\\ud800\"]"⟩, ⟨some "username", "\"a\""⟩] ∧
      Shape.user.decode "\x7b\"x\":[\"\\ud800\"], \"user\\u006eame\": \"a\"\x7d"
        = .ok ⟨"a", none, false, []⟩ := by
  have half : WellFormed "[\"\\ud800\"]".toList :=
    @WellFormed.array [⟨[], "\"\\ud800\"".toList, []⟩] _ rfl
      (List.forall_mem_singleton.2 ⟨blanks_nil, blanks_nil⟩)
      (List.forall_mem_singleton.2 (.literal (.unit (n := 0xD800) rfl .nil)))
  have other : Member.IsEntry ⟨[], ['x'], [], ⟨[], "[\"\\ud800\"]".toList, []⟩⟩
      ⟨some "x", "[\"\\ud800\"]"⟩ :=
    Member.isEntry_of_read ⟨blanks_nil, blanks_nil, blanks_nil, blanks_nil⟩ (by decide +kernel) half
  have user : Member.IsEntry ⟨[' '], "user\\u006eame".toList, [], ⟨[' '], "\"a\"".toList, []⟩⟩
      ⟨some "username", "\"a\""⟩ :=
    Member.isEntry_of_read ⟨blanks_space, blanks_nil, blanks_space, blanks_nil⟩ (by decide +kernel)
      wellFormed_letter
  have object : ObjectText [⟨some "x", "[\"\\ud800\"]"⟩, ⟨some "username", "\"a\""⟩]
      "\x7b\"x\":[\"\\ud800\"], \"user\\u006eame\": \"a\"\x7d" := by
    refine ⟨[], "\"x\":[\"\\ud800\"], \"user\\u006eame\": \"a\"".toList, [], _, by decide, blanks_nil,
      blanks_nil, ?_, .cons other (.cons user .nil)⟩
    rfl
  have named : Named [⟨some "x", "[\"\\ud800\"]"⟩, ⟨some "username", "\"a\""⟩] := by
    unfold Named
    decide
  have text : Shape.text.decode "\"a\"" = .ok "a" := by decide +kernel
  exact ⟨object, named, (objects_decoded.2.1.decoded object named _).2 ⟨text, rfl, rfl, rfl⟩⟩

/-- An object is not decoded at all if the name of a member is no text, even if no field could be meant. -/
theorem unspelled_name_refused :
    ObjectText [⟨none, "null"⟩, ⟨some "username", "\"a\""⟩]
        "\x7b\"\\ud800\":null,\"username\":\"a\"\x7d" ∧
      (∀ k ∈ [⟨"username", true, Shape.text.Accepts⟩, ⟨"displayName", false, (Shape.optional .text).Accepts⟩,
        ⟨"canAdmin", false, Shape.flag.Accepts⟩, ⟨"repositories", false, (Shape.list .text).Accepts⟩],
        Known.Fits k [⟨none, "null"⟩, ⟨some "username", "\"a\""⟩]) ∧
      Shape.user.decode "\x7b\"\\ud800\":null,\"username\":\"a\"\x7d"
        = .error (.malformed ⟨.endOfHexEscape, 1, 9⟩) := by
  have unread : ∀ name : String, ¬Literal.Spells "\\ud800".toList name.toList := by
    intro name spells
    have read : Literal.read ("\\ud800".toList ++ ['"']) = .ok (name, []) :=
      Literal.read_eq_ok_iff.2 ⟨_, rfl, spells⟩
    have fault : Literal.read ("\\ud800".toList ++ ['"']) = .error (.within .endOfHexEscape ['"']) := by
      decide +kernel
    rw [fault] at read
    cases read
  have half : Member.IsEntry ⟨[], "\\ud800".toList, [], ⟨[], "null".toList, []⟩⟩ ⟨none, "null"⟩ :=
    { spaced := ⟨blanks_nil, blanks_nil, blanks_nil, blanks_nil⟩
      inside := .unit (n := 0xD800) rfl .nil
      name := fun name => iff_of_false (by simp) (unread name)
      wellFormed := .null
      value := rfl }
  have user : Member.IsEntry ⟨[], "username".toList, [], ⟨[], "\"a\"".toList, []⟩⟩
      ⟨some "username", "\"a\""⟩ :=
    Member.isEntry_of_read ⟨blanks_nil, blanks_nil, blanks_nil, blanks_nil⟩ (by decide +kernel)
      wellFormed_letter
  refine ⟨?_, ?_, by decide +kernel⟩
  · refine ⟨[], "\"\\ud800\":null,\"username\":\"a\"".toList, [], _, by decide, blanks_nil, blanks_nil, ?_,
      .cons half (.cons user .nil)⟩
    rfl
  · have text : Shape.text.decode "\"a\"" = .ok "a" := by decide +kernel
    simp only [List.forall_mem_cons, List.not_mem_nil, false_imp_iff, implies_true, and_true]
    refine ⟨⟨by decide, fun _ => by decide, ?_⟩, ?_, ?_, ?_⟩
    · exact List.forall_mem_singleton.2 ⟨"a", text⟩
    all_goals exact ⟨by decide, nofun, fun value none => absurd none List.not_mem_nil⟩

end Courier
