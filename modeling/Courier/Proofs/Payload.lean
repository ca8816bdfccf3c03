import Courier.Proofs.Calendar.ZonedText
import Courier.Proofs.Json.Record
import Courier.Repository
import Courier.Settings

set_option autoImplicit false

/-! # Payloads that read back

Repositories, users, collections of both, and settings are written without fault, and reading the payload
gives the data back. Dates are written to the second, so each is read as the start of the second that clocks show;
nothing else is lost. That is the second of the date itself if no date runs over (`wholeSeconds_eq_cut_iff`). The
laws of the shapes are put together here, record by record.
-/

namespace Courier

open Json

/-! ## Drafts of values -/

namespace Json.Draft

mutual

/-- The names of a value are texts, so a draft of it settles, and to the value itself. -/
theorem settle_ofValue (v : Value) : settle (ofValue v) = .ok v := by
  cases v with
  | null => rfl
  | boolean b => rfl
  | number n => rfl
  | string s => rfl
  | array items => rw [ofValue, settle, settleItems_ofItems items]; rfl
  | object members => rw [ofValue, settle, settleMembers_ofMembers members]; rfl

theorem settleItems_ofItems (items : List Value) : settleItems (ofItems items) = .ok items := by
  cases items with
  | nil => rfl
  | cons item items =>
    rw [ofItems, settleItems, settle_ofValue item, settleItems_ofItems items]
    rfl

theorem settleMembers_ofMembers (members : List (String × Value)) :
    settleMembers (ofMembers members) = .ok members := by
  cases members with
  | nil => rfl
  | cons member members =>
    obtain ⟨name, item⟩ := member
    rw [ofMembers, settleMembers, Key.text?]
    simp only [settle_ofValue item, settleMembers_ofMembers members]
    rfl

end

/-- The payload of a draft of a value is the wide text of the value. -/
theorem encode_ofValue (v : Value) : (ofValue v).encode = .ok v.wide := by
  unfold encode encodeWith text
  rw [settle_ofValue]
  rfl

end Json.Draft

/-! ## What is kept -/

/-- The repository with each of its dates at the start of the second that clocks show. -/
def Repository.wholeSeconds (r : Repository) : Repository :=
  { r with lastChange := r.lastChange.wholeSecond, createdAt := r.createdAt.map Instant.wholeSecond }

def Catalog.wholeSeconds (c : Catalog) : Catalog := Table.map Repository.wholeSeconds c

def Repository.cut (r : Repository) : Repository :=
  { r with lastChange := r.lastChange.cut, createdAt := r.createdAt.map Instant.cut }

def Catalog.cut (c : Catalog) : Catalog := Table.map Repository.cut c

def Repository.dates (r : Repository) : List Instant := r.lastChange :: r.createdAt.toList

/-- What is kept of a repository has its dates cut, unless one of them runs over. -/
theorem Repository.wholeSeconds_eq_cut_iff {r : Repository} :
    r.wholeSeconds = r.cut ↔ ∀ t ∈ r.dates, t.runsOver = false := by
  obtain ⟨name, description, owner, lastChange, createdAt, frozen⟩ := r
  unfold wholeSeconds cut dates
  cases createdAt <;>
    simp [Instant.wholeSecond_eq_cut_iff]

theorem Table.map_eq_map_iff {α β : Type} {f g : α → β} {t : Table α} :
    t.map f = t.map g ↔ ∀ p ∈ t.entries, f p.2 = g p.2 := by
  unfold Table.map
  rw [Table.mk.injEq, List.map_inj_left]
  simp only [Prod.mk.injEq, true_and]

theorem Catalog.wholeSeconds_eq_cut_iff {c : Catalog} :
    c.wholeSeconds = c.cut ↔ ∀ p ∈ c.entries, ∀ t ∈ p.2.dates, t.runsOver = false := by
  unfold wholeSeconds cut
  simp only [Table.map_eq_map_iff, Repository.wholeSeconds_eq_cut_iff]

namespace Json.Shape

/-- Data of the shape are written without fault, and read back as what `keep` makes of them. -/
def RoundTrips {α : Type} (shape : Shape α) (keep : α → α) : Prop :=
  ∀ a, (Draft.ofValue (shape.write a)).encode = .ok (shape.encode a) ∧
    shape.decode (shape.encode a) = .ok (keep a)

theorem decode_of_takes {α : Type} {shape : Shape α} {t : List Char} {a : α}
    (h : Takes (shape.read nestingLimit) t a) : shape.decode (String.ofList t) = .ok a := by
  have read := h [] endsPart_nil
  rw [List.append_nil] at read
  unfold decode readDocument
  simp only [String.toList_ofList, read]
  rfl

/-- What is written for data of a faithful shape is decoded as what is kept of them, in any layout. -/
theorem Faithful.decode_render {α : Type} {shape : Shape α} {keep : α → α} {height : Nat}
    (h : shape.Faithful keep height) (room : height ≤ nestingLimit) {layout : Layout} (sound : layout.Sound)
    (level : Nat) (a : α) : shape.decode (String.ofList ((shape.write a).render layout level)) = .ok (keep a) :=
  decode_of_takes (h layout sound level nestingLimit a [] room blanks_nil)

/-- A faithful shape makes payloads that read back, if it has room for its containers. -/
theorem Faithful.roundTrips {α : Type} {shape : Shape α} {keep : α → α} {height : Nat}
    (h : shape.Faithful keep height) (room : height ≤ nestingLimit) : shape.RoundTrips keep :=
  fun a => ⟨Draft.encode_ofValue _, h.decode_render room Layout.sound_wide 0 a⟩

/-! ## The shapes of the records -/

/-- The fields of a repository are read back, its dates as the start of their seconds. -/
theorem repository_fields_faithful : ∃ keeps, Repository.record.fields.Faithful keeps 0 ∧
    ∀ r, Repository.record.build (keeps (Repository.record.row r)) = r.wholeSeconds := by
  have present : ∀ t, instant.write t ≠ .null := by
    intro t null
    cases null
  have fields : Repository.record.fields.Faithful _ 0 :=
    .written text_faithful (fun _ => rfl) <|
    .written text_faithful (fun _ => rfl) <|
    .written text_faithful (fun _ => rfl) <|
    .written instant_faithful (fun _ => rfl) <|
    .cons (optional_faithful instant_faithful present)
      (fun createdAt left => by
        -- Only an absent date is left out, and absence is what the reader puts in for it.
        cases createdAt with
        | none => rfl
        | some t => exact absurd left (by simp)) <|
    .written flag_faithful (fun _ => rfl) .nil
  exact ⟨_, fields, fun _ => rfl⟩

theorem repository_faithful : repository.Faithful Repository.wholeSeconds 1 := by
  obtain ⟨keeps, fields, built⟩ := repository_fields_faithful
  exact Record.faithful fields (by decide) built

theorem texts_faithful : (list text).Faithful id 1 := by
  simpa using list_faithful text_faithful

theorem user_faithful : user.Faithful id 2 := by
  have fields : User.record.fields.Faithful _ 1 :=
    .written (text_faithful.mono (Nat.zero_le _)) (fun _ => rfl) <|
    .written (optionalText_faithful.mono (Nat.zero_le _)) (fun _ => rfl) <|
    .written (flag_faithful.mono (Nat.zero_le _)) (fun _ => rfl) <|
    .written texts_faithful (fun _ => rfl) .nil
  exact Record.faithful fields (by decide) fun _ => rfl

theorem catalog_faithful : catalog.Faithful Catalog.wholeSeconds 2 :=
  table_faithful repository_faithful

theorem users_faithful : users.Faithful id 3 := by
  have faithful := list_faithful user_faithful
  rw [List.map_id_fun] at faithful
  exact faithful

theorem settings_faithful : settings.Faithful id 1 := by
  have distinct : ∀ a, Trust.choices.all.find? (fun b => Trust.choices.name b == Trust.choices.name a)
      = some a := by
    intro a
    cases a <;> decide
  have fields : Settings.record.fields.Faithful _ 0 :=
    .written natural_faithful (fun _ => rfl) <|
    .written natural_faithful (fun _ => rfl) <|
    .written (choice_faithful distinct) (fun _ => rfl) <|
    .written optionalText_faithful (fun _ => rfl) .nil
  exact Record.faithful fields (by decide) fun _ => rfl

end Json.Shape

/-- Repositories, users, collections of any size of both, and settings are written without fault and read
back as they were, but for their dates. A date comes back as the start of its second, unless it runs over: then it
comes back as the start of the next one. -/
theorem records_roundTrip :
    (Shape.repository.RoundTrips Repository.wholeSeconds ∧ Shape.user.RoundTrips id ∧
      Shape.catalog.RoundTrips Catalog.wholeSeconds ∧ Shape.users.RoundTrips id ∧
      Shape.settings.RoundTrips id) ∧
    (∀ r : Repository, r.wholeSeconds = r.cut ↔ ∀ t ∈ r.dates, t.runsOver = false) ∧
    (∀ c : Catalog, c.wholeSeconds = c.cut ↔ ∀ p ∈ c.entries, ∀ t ∈ p.2.dates, t.runsOver = false) ∧
    ∀ t : Instant, t.runsOver = true → t.wholeSecond.second = t.second + 1 ∧ t.wholeSecond.nano = 0 := by
  refine ⟨⟨?_, ?_, ?_, ?_, ?_⟩, fun _ => Repository.wholeSeconds_eq_cut_iff,
    fun _ => Catalog.wholeSeconds_eq_cut_iff, fun _ => Instant.wholeSecond_of_runsOver⟩
  · exact Shape.repository_faithful.roundTrips (by decide)
  · exact Shape.user_faithful.roundTrips (by decide)
  · exact Shape.catalog_faithful.roundTrips (by decide)
  · exact Shape.users_faithful.roundTrips (by decide)
  · exact Shape.settings_faithful.roundTrips (by decide)

/-- A repository that was last changed one and a half seconds after a full minute. -/
theorem repository_reads_following_second :
    ∃ r r' : Repository, r.lastChange.second = 1308133800 ∧ r.lastChange.nano = 1500000000 ∧
      Shape.repository.encode r = "\x7b\n  \"name\": \"a\",\n  \"description\": \"\",\n  \"owner\": \"\",\n" ++
        "  \"lastChange\": \"2011-06-15T10:30:01Z\",\n  \"frozen\": false\n\x7d" ∧
      Shape.repository.decode (Shape.repository.encode r) = .ok r' ∧
      r'.lastChange.second = r.lastChange.second + 1 ∧ r' ≠ r.cut := by
  let t : Instant := ⟨1308133800, 1500000000, by decide, by decide⟩
  have runs : t.runsOver = true := by decide
  let r : Repository := ⟨"a", "", "", t, none, false⟩
  have back := (Shape.repository_faithful.roundTrips (by decide) r).2
  refine ⟨r, r.wholeSeconds, rfl, rfl, ?_, back, (Instant.wholeSecond_of_runsOver runs).1, fun same => ?_⟩
  · decide +kernel
  · have none := Repository.wholeSeconds_eq_cut_iff.1 same t List.mem_cons_self
    rw [runs] at none
    cases none

end Courier
