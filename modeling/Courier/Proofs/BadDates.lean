import Courier.Proofs.Fetching
import Courier.Proofs.Json.RecordRefusal
import Courier.Proofs.Payload

set_option autoImplicit false

/-! # Dates that are none

A repository whose payload gives a text that is no date, for its last change or for its creation, is not
decoded. The fault tells the text in full, quoted, and why it is no date; line and column come after both, so
nothing in the text can be taken for them. The same holds of a repository in a table, and of a fetch of either.
-/

namespace Courier

open Json

/-! ## The payload and its message -/

/-- The members with a value under a name: in the place of the member of the name, or anywhere if no member has
the name. -/
inductive Json.PutUnder (name : String) (v : Value) :
    List (String × Value) → List (String × Value) → Prop where
  | replaced {before after : List (String × Value)} {old : Value} (first : name ∉ before.map Prod.fst) :
      PutUnder name v (before ++ (name, old) :: after) (before ++ (name, v) :: after)
  | added {before after : List (String × Value)} (absent : name ∉ (before ++ after).map Prod.fst) :
      PutUnder name v (before ++ after) (before ++ (name, v) :: after)

theorem Json.PutUnder.split {name : String} {v : Value} {members members' : List (String × Value)}
    (h : PutUnder name v members members') :
    ∃ before more after, members = before ++ more ∧ name ∉ before.map Prod.fst ∧
      members' = before ++ (name, v) :: after := by
  cases h with
  | replaced first => exact ⟨_, _, _, rfl, first, rfl⟩
  | added absent =>
    rw [List.map_append, List.mem_append, not_or] at absent
    exact ⟨_, _, _, rfl, absent.1, rfl⟩

/-- What is said of a text that is no date, found at a line and a column. -/
def badDateMessage (text : String) (reason : DateText.Fault) (line column : Nat) : String :=
  s!"syntax error: invalid date {quoted text}: {reason.message} at line {line} column {column}"

/-- The document is not decoded, because the text in it is no date, and that is what is said. A fetch of the
document fails in the same way. -/
def NamesBadDate {α : Type} (shape : Shape α) (document text : String) (reason : DateText.Fault) : Prop :=
  ∃ (fault : SyntaxFault) (line column : Nat), shape.decode document = .error (.malformed fault) ∧
    (PayloadFault.malformed fault).message = badDateMessage text reason line column ∧
    ∀ {σ : Type} (client : Client) (url : String) (credentials : Option Credentials) (network : Network σ)
      (state : σ) (answer : Answer),
      (network (client.fetchRequest url credentials) state).1 = .ok answer →
      200 ≤ answer.status ∧ answer.status ≤ 299 → Delivers answer.body (Utf8.encode document.toList) →
      ((Call.fetch shape url credentials).run client network state).1.result
          = .error (.payload (.malformed fault)) ∧
        (Failure.payload (.malformed fault)).message = badDateMessage text reason line column

theorem Json.Tree.wide_ne_empty (v : Value) : v.wide ≠ "" := by
  intro empty
  obtain ⟨c, t, begins, -⟩ := Tree.starts_render .wide 0 v
  have same := congrArg String.toList empty
  rw [Tree.wide, String.toList_ofList, begins] at same
  cases same

/-- The pieces of a message may be put together from either end. -/
theorem message_eq (shown told : String) (line column : Nat) :
    let cause := s!"invalid date {shown}: {told}"
    "syntax error: " ++ s!"{cause} at line {line} column {column}"
      = s!"syntax error: invalid date {shown}: {told} at line {line} column {column}" := by
  have plain : ∀ s : String, toString s = s := fun _ => rfl
  apply String.toList_inj.1
  simp [plain]

theorem namesBadDate_of_rejects {α : Type} {shape : Shape α} {v : Value} {text : String}
    {reason : DateText.Fault}
    (h : shape.Rejects nestingLimit (v.render .wide 0) (.invalidDate text reason.message)) :
    NamesBadDate shape v.wide text reason := by
  obtain ⟨fault, failed, named⟩ := Shape.decode_of_refuses (h [] blanks_nil)
  have message : (PayloadFault.malformed fault).message
      = badDateMessage text reason fault.line fault.column := by
    show "syntax error: " ++ fault.message = _
    rw [SyntaxFault.message, named]
    exact message_eq (quoted text) reason.message fault.line fault.column
  refine ⟨fault, fault.line, fault.column, failed, message, ?_⟩
  intro σ client url credentials network state answer arrives success delivers
  exact ⟨Call.fetch_of_decode_error client shape url credentials arrives success (Tree.wide_ne_empty v)
    delivers failed, message⟩

/-! ## Repositories -/

theorem repository_rejects {name : String} (dated : name = "lastChange" ∨ name = "createdAt")
    {layout : Layout} (sound : layout.Sound) (depth level : Nat) {text : String} {reason : DateText.Fault}
    (rejected : DateText.parse text = .error reason) :
    Repository.record.fields.Rejects depth name ((Tree.string text).render layout level)
      (.invalidDate text reason.message) := by
  have instant : Shape.instant.Rejects depth ((Tree.string text).render layout level) _ :=
    Shape.instant_rejects sound level rejected
  rcases dated with rfl | rfl
  · exact instant
  · exact Shape.optional_rejects nofun instant

theorem Repository.rejects_badDate {name : String} (dated : name = "lastChange" ∨ name = "createdAt")
    {depth level : Nat} {text : String} {reason : DateText.Fault}
    (rejected : DateText.parse text = .error reason) {r : Repository} {written members : List (String × Value)}
    (document : Shape.repository.write r = .object written)
    (put : PutUnder name (.string text) written members) :
    Shape.repository.Rejects (depth + 1) ((Tree.object members).render .wide level)
      (.invalidDate text reason.message) := by
  obtain ⟨keeps, fields, -⟩ := Shape.repository_fields_faithful
  obtain rfl : Repository.record.fields.members (Repository.record.row r) = written :=
    Tree.object.inj document
  have rejects := repository_rejects dated Layout.sound_wide depth (level + 1) rejected
  obtain ⟨before, more, after, split, first, rfl⟩ := put.split
  exact Record.refuses fields (by decide) Layout.sound_wide (Nat.zero_le depth) r split first rejects

/-- Whatever text is no date, and whatever the repository is: with the text in the place of one of its dates, or
as a date of creation where it had none, what is written for it is not decoded, by itself or as an entry among
others in a table. The message gives the text in full, quoted, and the reason, and a fetch fails with it. -/
theorem bad_dates_named {name : String} (dated : name = "lastChange" ∨ name = "createdAt") {text : String}
    {reason : DateText.Fault} (rejected : DateText.parse text = .error reason) {r : Repository}
    {written members : List (String × Value)} (document : Shape.repository.write r = .object written)
    (put : PutUnder name (.string text) written members) :
    NamesBadDate Shape.repository (Tree.object members).wide text reason ∧
      ∀ (before after : List (String × Repository)) (address : String),
        NamesBadDate Shape.catalog
          (Tree.object (before.map (fun p => (p.1, Shape.repository.write p.2)) ++ (address, .object members)
            :: after.map (fun p => (p.1, Shape.repository.write p.2)))).wide text reason := by
  constructor
  · exact namesBadDate_of_rejects (Repository.rejects_badDate dated rejected document put)
  · intro before after address
    have entry : Shape.repository.Rejects (nestingLimit - 1) ((Tree.object members).render .wide 1)
        (.invalidDate text reason.message) :=
      @Repository.rejects_badDate _ dated (nestingLimit - 2) 1 _ _ rejected _ _ _ document put
    exact namesBadDate_of_rejects
      (Shape.table_rejects Shape.repository_faithful (by decide) Layout.sound_wide before entry _)

/-- A text that looks like the end of a message, as the date of creation of a repository that had none, in a
table after another repository. -/
theorem bad_dates_named_like_place :
    let r : Repository := ⟨"a", "", "", ⟨0, 0, by decide, by decide⟩, none, false⟩
    let members : List (String × Value) := [("name", .string "a"), ("description", .string ""),
      ("owner", .string ""), ("lastChange", .string "1970-01-01T00:00:00Z"),
      ("createdAt", .string "\" at line 1 column 1"), ("frozen", .boolean false)]
    DateText.parse "\" at line 1 column 1" = .error .invalid ∧
      (∃ (fault : SyntaxFault) (line column : Nat),
        Shape.repository.decode (Tree.object members).wide = .error (.malformed fault) ∧
        (PayloadFault.malformed fault).message = "syntax error: invalid date \"\\\" at line 1 column 1\": "
          ++ s!"input contains invalid characters at line {line} column {column}") ∧
      NamesBadDate Shape.catalog (Tree.object [("k", Shape.repository.write r), ("l", .object members)]).wide
        "\" at line 1 column 1" .invalid := by
  intro r members
  have rejected : DateText.parse "\" at line 1 column 1" = .error .invalid := by decide
  have put : PutUnder "createdAt" (.string "\" at line 1 column 1")
      ([("name", .string "a"), ("description", .string ""), ("owner", .string ""),
        ("lastChange", .string "1970-01-01T00:00:00Z")] ++ [("frozen", .boolean false)]) members :=
    .added (by decide)
  have document : Shape.repository.write r = .object ([("name", .string "a"), ("description", .string ""),
      ("owner", .string ""), ("lastChange", .string "1970-01-01T00:00:00Z")] ++ [("frozen", .boolean false)]) := by
    have told : DateText.format r.lastChange = "1970-01-01T00:00:00Z" := by decide +kernel
    rw [← told]
    rfl
  obtain ⟨⟨fault, line, column, failed, message, -⟩, tables⟩ :=
    bad_dates_named (.inr rfl) rejected document put
  refine ⟨rejected, ⟨fault, line, column, failed, message.trans ?_⟩, tables [("k", r)] [] "l"⟩
  have quotation : quoted "\" at line 1 column 1" = "\"\\\" at line 1 column 1\"" := by decide +kernel
  unfold badDateMessage
  rw [quotation]
  rfl

end Courier
