import Courier.Proofs.Dates
import Courier.Proofs.Json.Interchange
import Courier.Service.Sample

set_option autoImplicit false

/-! # Records of the service and of the client

The service and its clients each have records of their own for repositories and users. To the service a date is
a text; to a client it is an instant, and fields may be left out that the service never leaves out. Both write
the same members for the same data, in the same order. So what a client writes the service reads, and the other
way round as long as the texts of dates are dates. To a client neither the layout nor the order of the members
matters, which the service gives in the order of their names.
-/

namespace Courier

open Json

/-- What is written for a text is a literal of it. -/
theorem Json.quotes_render (layout : Layout) (level : Nat) (text : String) :
    Quotes (String.ofList ((Tree.string text).render layout level)) text := by
  refine ⟨[], text.toList.flatMap escape, [], ?_, blanks_nil, blanks_nil, Literal.spells_flatMap_escape text⟩
  rw [String.toList_ofList, Tree.render, textLiteral]
  rfl

/-! ## Data of the one side as data of the other -/

/-- The repository as the service has it: its dates are the texts that are written for them. -/
def Repository.listed (r : Repository) : Service.Repository where
  name := r.name
  description := r.description
  owner := r.owner
  lastChange := DateText.format r.lastChange
  createdAt := r.createdAt.map DateText.format
  frozen := r.frozen

def User.listed (u : User) : Service.User where
  username := u.username
  displayName := u.displayName
  canAdmin := u.canAdmin
  repositories := u.repositories

namespace Service

/-- The client's repository is that of the service, and its dates are those that the texts tell. -/
structure Repository.IsRead (m : Repository) (r : Courier.Repository) : Prop where
  name : r.name = m.name
  description : r.description = m.description
  owner : r.owner = m.owner
  lastChange : DateText.parse m.lastChange = .ok r.lastChange
  createdAt : Option.Rel (fun text t => DateText.parse text = .ok t) m.createdAt r.createdAt
  frozen : r.frozen = m.frozen

/-- The texts of all dates that the repository has are dates. -/
structure Repository.Dated (m : Repository) : Prop where
  lastChange : ∃ t, DateText.parse m.lastChange = .ok t
  createdAt : ∀ text, m.createdAt = some text → ∃ t, DateText.parse text = .ok t

/-- Texts of dates are all that may keep a repository from being read. -/
theorem Repository.exists_isRead_iff {m : Repository} : (∃ r, m.IsRead r) ↔ m.Dated := by
  constructor
  · rintro ⟨r, -, -, -, lastChange, createdAt, -⟩
    refine ⟨⟨_, lastChange⟩, fun text there => ?_⟩
    rw [there] at createdAt
    generalize r.createdAt = created at createdAt
    cases createdAt with
    | some read => exact ⟨_, read⟩
  · rintro ⟨⟨t, lastChange⟩, createdAt⟩
    match created : m.createdAt with
    | none => exact ⟨⟨m.name, m.description, m.owner, t, none, m.frozen⟩, rfl, rfl, rfl, lastChange,
        created ▸ .none, rfl⟩
    | some text =>
      obtain ⟨t', read⟩ := createdAt text created
      exact ⟨⟨m.name, m.description, m.owner, t, some t', m.frozen⟩, rfl, rfl, rfl, lastChange,
        created ▸ .some read, rfl⟩

/-! ## The service reads what it writes -/

theorem repository_faithful : Repository.record.shape.Faithful id 1 := by
  have fields : Repository.record.fields.Faithful _ 0 :=
    .written Shape.text_faithful (fun _ => rfl) <|
    .written Shape.text_faithful (fun _ => rfl) <|
    .written Shape.text_faithful (fun _ => rfl) <|
    .written Shape.text_faithful (fun _ => rfl) <|
    .cons Shape.optionalText_faithful
      (fun createdAt left => by
        cases createdAt with
        | none => rfl
        | some text => exact absurd left (by simp)) <|
    .written Shape.flag_faithful (fun _ => rfl) .nil
  exact Record.faithful fields (by decide) fun _ => rfl

theorem user_faithful : User.record.shape.Faithful id 2 := by
  have fields : User.record.fields.Faithful _ 1 :=
    .written (Shape.text_faithful.mono (Nat.zero_le _)) (fun _ => rfl) <|
    .written (Shape.optionalText_faithful.mono (Nat.zero_le _)) (fun _ => rfl) <|
    .written (Shape.flag_faithful.mono (Nat.zero_le _)) (fun _ => rfl) <|
    .written Shape.texts_faithful (fun _ => rfl) .nil
  exact Record.faithful fields (by decide) fun _ => rfl

/-! ## The client reads what the service writes -/

/-- The members of a repository that the service writes tell a client that repository. -/
theorem repository_passesOn {layout : Layout} (sound : layout.Sound) (m : Repository)
    (row : Row Courier.Repository.record.types) :
    Repository.record.fields.PassesOn layout (Repository.record.row m) Courier.Repository.record.fields row ↔
      m.IsRead (Courier.Repository.record.build row) := by
  obtain ⟨name, description, owner, lastChange, createdAt, frozen, ⟨⟩⟩ := row
  have date : ∀ text, Quotes (String.ofList ((Tree.string text).render layout 1)) text := quotes_render layout 1
  have created : Field.PassesOn { name := "createdAt", shape := .optional .text, omitted := Option.isNone } layout
      m.createdAt { name := "createdAt", shape := .optional .instant, absence := .anywhere none } createdAt ↔
      Option.Rel (fun text t => DateText.parse text = .ok t) m.createdAt createdAt := by
    cases m.createdAt with
    | none =>
      show some none = some createdAt ↔ _
      constructor
      · intro absent
        rw [← Option.some.inj absent]
        exact .none
      · intro absent
        cases absent
        rfl
    | some text =>
      refine ((date text).optional_iff createdAt).trans ?_
      constructor
      · rintro ⟨t, read, rfl⟩
        exact .some read
      · intro present
        cases present with
        | some read => exact ⟨_, read, rfl⟩
  have texts {name : String} {absence absence' : Absence String} {a b : String} :
      Field.PassesOn { name, shape := .text, absence } layout a { name, shape := .text, absence := absence' } b ↔
        b = a := Field.passesOn_iff_eq Shape.text_faithful (Nat.zero_le _) sound
  have changed : Field.PassesOn { name := "lastChange", shape := .text } layout m.lastChange
      { name := "lastChange", shape := .instant } lastChange ↔ DateText.parse m.lastChange = .ok lastChange :=
    (Field.passesOn_iff_of_written (fun _ => rfl) layout _ _ _).trans ((date m.lastChange).instant_iff lastChange)
  constructor
  · rintro ⟨h₁, h₂, h₃, h₄, h₅, h₆, -⟩
    exact ⟨texts.1 h₁, texts.1 h₂, texts.1 h₃, changed.1 h₄, created.1 h₅,
      (Field.passesOn_iff_eq Shape.flag_faithful (Nat.zero_le _) sound).1 h₆⟩
  · rintro ⟨h₁, h₂, h₃, h₄, h₅, h₆⟩
    exact ⟨texts.2 h₁, texts.2 h₂, texts.2 h₃, changed.2 h₄, created.2 h₅,
      (Field.passesOn_iff_eq Shape.flag_faithful (Nat.zero_le _) sound).2 h₆, trivial⟩

/-- The members of a user that the service writes tell a client that user. -/
theorem user_passesOn {layout : Layout} (sound : layout.Sound) (u : User) (row : Row Courier.User.record.types) :
    User.record.fields.PassesOn layout (User.record.row u) Courier.User.record.fields row ↔
      row = (u.username, u.displayName, u.canAdmin, u.repositories, ()) := by
  obtain ⟨username, displayName, canAdmin, repositories, ⟨⟩⟩ := row
  constructor
  · rintro ⟨h₁, h₂, h₃, h₄, -⟩
    obtain rfl := (Field.passesOn_iff_eq Shape.text_faithful (Nat.zero_le _) sound).1 h₁
    obtain rfl := (Field.passesOn_iff_eq Shape.optionalText_faithful (Nat.zero_le _) sound).1 h₂
    obtain rfl := (Field.passesOn_iff_eq Shape.flag_faithful (Nat.zero_le _) sound).1 h₃
    obtain rfl := (Field.passesOn_iff_eq Shape.texts_faithful (by decide) sound).1 h₄
    rfl
  · intro same
    cases same
    exact ⟨(Field.passesOn_iff_eq Shape.text_faithful (Nat.zero_le _) sound).2 rfl,
      (Field.passesOn_iff_eq Shape.optionalText_faithful (Nat.zero_le _) sound).2 rfl,
      (Field.passesOn_iff_eq Shape.flag_faithful (Nat.zero_le _) sound).2 rfl,
      (Field.passesOn_iff_eq Shape.texts_faithful (by decide) sound).2 rfl, trivial⟩

/-- A repository that the service writes is decoded as the client's, if its texts of dates are dates. -/
theorem repository_decode_iff {m : Repository} {text : String} (renders : Repository.record.Renders m text)
    (r : Courier.Repository) : Shape.repository.decode text = .ok r ↔ m.IsRead r := by
  refine (Record.decode_iff_of_renders Repository.record Courier.Repository.record Shape.repository_ready rfl
    (by decide) (fun _ sound => repository_passesOn sound m) renders r).trans ?_
  constructor
  · rintro ⟨row, told, rfl⟩
    exact told
  · intro told
    exact ⟨Courier.Repository.record.row r, told, rfl⟩

/-- A user that the service writes is decoded as the client's. -/
theorem user_decode {u : User} {text : String} (renders : User.record.Renders u text) :
    Shape.user.decode text = .ok ⟨u.username, u.displayName, u.canAdmin, u.repositories⟩ :=
  (Record.decode_iff_of_renders User.record Courier.User.record Shape.user_ready rfl (by decide)
    (fun _ sound => user_passesOn sound u) renders _).2 ⟨_, rfl, rfl⟩

end Service

/-- What a client writes for repositories and users the service reads as its own, with the texts of dates for the
dates, and writes in the same way. What the service writes, in either layout and whatever the order of the
members, a client reads as its own: users always, and a repository if its texts of dates are dates. -/
theorem records_correspond :
    Shape.repository.PassesTo Service.Repository.record.shape Repository.listed ∧
    Shape.user.PassesTo Service.User.record.shape User.listed ∧
    (∀ m text, Service.Repository.record.Renders m text →
      (∀ r, Shape.repository.decode text = .ok r ↔ m.IsRead r) ∧
      ((∃ r, Shape.repository.decode text = .ok r) ↔ m.Dated)) ∧
    ∀ u text, Service.User.record.Renders u text →
      Shape.user.decode text = .ok ⟨u.username, u.displayName, u.canAdmin, u.repositories⟩ := by
  refine ⟨?_, ?_, ?_, ?_⟩
  · refine Service.repository_faithful.passesTo (by decide) fun r => ?_
    obtain ⟨name, description, owner, lastChange, createdAt, frozen⟩ := r
    cases createdAt <;> rfl
  · exact Service.user_faithful.passesTo (by decide) fun _ => rfl
  · intro m text renders
    have read := Service.repository_decode_iff renders
    exact ⟨read, (exists_congr read).trans Service.Repository.exists_isRead_iff⟩
  · intro u text renders
    exact Service.user_decode renders

/-- The first repository that the service lists, with its members in the order of their names, and the second
user, on several lines. -/
theorem records_correspond_of_listed :
    let repository := "\x7b\"createdAt\":\"2010-01-02T03:04:05Z\",\"description\":\"build tooling\"," ++
      "\"frozen\":false,\"lastChange\":\"2011-06-15T10:30:00Z\",\"name\":\"tools.git\",\"owner\":\"admin\"\x7d"
    let user := "\x7b\n  \"username\": \"guest\",\n  \"displayName\": null,\n  \"canAdmin\": false,\n" ++
      "  \"repositories\": [\n    \"docs.git\"\n  ]\n\x7d"
    (∃ m ∈ Service.repositories.map Prod.snd, Service.Repository.record.Renders m repository ∧ m.Dated ∧
      ∃ r, Shape.repository.decode repository = .ok r ∧ m.IsRead r) ∧
    ∃ u ∈ Service.users, Service.User.record.Renders u user ∧
      Shape.user.decode user = .ok ⟨u.username, u.displayName, u.canAdmin, u.repositories⟩ := by
  intro repository user
  obtain ⟨-, -, repositories, users⟩ := records_correspond
  constructor
  · let m : Service.Repository := ⟨"tools.git", "build tooling", "admin", "2011-06-15T10:30:00Z",
      some "2010-01-02T03:04:05Z", false⟩
    have sorted : (Tree.object (Table.ofList
        (Service.Repository.record.fields.members (Service.Repository.record.row m))).entries).compact
          = repository := by
      decide +kernel
    have renders := Service.Repository.record.renders_sorted m (by decide)
    rw [sorted] at renders
    have dated : m.Dated := by
      refine ⟨⟨⟨1308133800, 0, by decide, by decide⟩, by decide +kernel⟩, ?_⟩
      intro text there
      cases there
      exact ⟨⟨1262401445, 0, by decide, by decide⟩, by decide +kernel⟩
    obtain ⟨read, accepted⟩ := repositories m repository renders
    obtain ⟨r, decoded⟩ := accepted.2 dated
    exact ⟨m, by decide, renders, dated, r, decoded, (read r).1 decoded⟩
  · let u : Service.User := ⟨"guest", none, false, ["docs.git"]⟩
    have written : (Service.User.record.shape.write u).wide = user := by
      decide +kernel
    have renders := Service.User.record.renders_wide u
    rw [written] at renders
    exact ⟨u, by decide, renders, users u user renders⟩

end Courier
