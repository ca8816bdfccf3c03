import Courier.Proofs.Json.Collection
import Courier.Proofs.Json.Rendered
import Courier.Proofs.Objects

set_option autoImplicit false

/-! # Lists of users and tables of repositories

A list of users is decoded item by item, and a table of repositories value by value. Each of them means what it
is decoded as by itself, those values included that a later member of the same name puts out of the table. What
follows the document may only be blanks.
-/

namespace Courier

open Json

namespace Json.Shape

theorem repository_uniform : repository.Uniform 1 :=
  Record.uniform fun _ _ limit => repository_ready_at (Nat.le_of_lt limit)

theorem user_uniform : user.Uniform 2 :=
  Record.uniform fun _ room limit => user_ready_at room (Nat.le_of_lt limit)

end Json.Shape

/-- An array is decoded as a list of users, and an object as a table of repositories, exactly if each part is
decoded by itself. The list has the users in their order; the table has under each name that occurs what the
last value of the name is decoded as. Nothing is decoded if anything but blanks follows the document. -/
theorem collections_decoded :
    (∀ texts text, ArrayText texts text →
      (∀ us, Shape.users.decode text = .ok us ↔
        List.Forall₂ (fun t u => Shape.user.decode t = .ok u) texts us) ∧
      ((∃ us, Shape.users.decode text = .ok us) ↔ ∀ t ∈ texts, ∃ u, Shape.user.decode t = .ok u) ∧
      ∀ more : String, ¬Blanks more.toList →
        ∃ fault, Shape.users.decode (text ++ more) = .error (.malformed fault)) ∧
    (∀ pairs text, TableText pairs text →
      (∀ catalog, Shape.catalog.decode text = .ok catalog →
        (∀ name r, catalog.get? name = some r ↔
          ∃ t, LastUnder name pairs t ∧ Shape.repository.decode t = .ok r) ∧
        ∀ name, name ∈ catalog.entries.map Prod.fst ↔ name ∈ pairs.map Prod.fst) ∧
      ((∃ catalog, Shape.catalog.decode text = .ok catalog) ↔
        ∀ p ∈ pairs, ∃ r, Shape.repository.decode p.2 = .ok r) ∧
      ∀ more : String, ¬Blanks more.toList →
        ∃ fault, Shape.catalog.decode (text ++ more) = .error (.malformed fault)) := by
  constructor
  · intro texts text array
    have decoded := Shape.user_uniform.list_decode_iff (by decide) array
    have whole := decoded ""
    rw [String.append_empty] at whole
    have whole : ∀ us, Shape.users.decode text = .ok us ↔
        List.Forall₂ (fun t u => Shape.user.decode t = .ok u) texts us :=
      fun us => (whole us).trans (and_iff_right blanks_nil)
    refine ⟨whole, ?_, ?_⟩
    · simp only [whole]
      exact exists_forall₂_iff
    · intro more other
      exact Shape.decode_eq_malformed fun us taken => other ((decoded more us).1 taken).1
  · intro pairs text object
    have decoded := Shape.repository_uniform.table_decode_iff (by decide) object
    have whole := decoded ""
    rw [String.append_empty] at whole
    have whole : ∀ catalog, Shape.catalog.decode text = .ok catalog ↔ ∃ rs : List (String × Repository),
        List.Forall₂ (fun p q => p.1 = q.1 ∧ Shape.repository.decode p.2 = .ok q.2) pairs rs ∧
          catalog = Table.ofList rs :=
      fun catalog => (whole catalog).trans (and_iff_right blanks_nil)
    have unique : Relator.RightUnique fun t r => Shape.repository.decode t = .ok r := by
      intro t r r' first second
      exact Except.ok.inj (first.symm.trans second)
    refine ⟨?_, ?_, ?_⟩
    · intro catalog taken
      obtain ⟨rs, all, rfl⟩ := (whole catalog).1 taken
      refine ⟨fun name r => ?_, fun name => ?_⟩
      · rw [Table.get?_ofList_eq_some_iff]
        exact lastUnder_iff_of_forall₂ unique all
      · rw [Table.mem_names_ofList, ← map_fst_of_forall₂ all fun _ _ told => told.1]
    · have each : (∃ rs : List (String × Repository), List.Forall₂
          (fun p q => p.1 = q.1 ∧ Shape.repository.decode p.2 = .ok q.2) pairs rs) ↔
          ∀ p ∈ pairs, ∃ r, Shape.repository.decode p.2 = .ok r := by
        rw [exists_forall₂_iff]
        refine forall₂_congr fun p _ => ⟨?_, ?_⟩
        · rintro ⟨q, -, taken⟩
          exact ⟨q.2, taken⟩
        · rintro ⟨r, taken⟩
          exact ⟨(p.1, r), rfl, taken⟩
      rw [← each]
      constructor
      · rintro ⟨catalog, taken⟩
        obtain ⟨rs, all, -⟩ := (whole catalog).1 taken
        exact ⟨rs, all⟩
      · rintro ⟨rs, all⟩
        exact ⟨_, (whole _).2 ⟨rs, all, rfl⟩⟩
    · intro more other
      exact Shape.decode_eq_malformed fun catalog taken => other ((decoded more catalog).1 taken).1

/-- A list of a user that is given as an object and of one that is given as an array, and a table in which a
name comes twice, the second time spelled with an escape; and the list with a bracket too many. -/
theorem collections_decoded_twice_named :
    let users := " [\x7b\"username\":\"a\"\x7d ,\n[\"b\",null,true,[\"x\"]]]"
    let old := "[\"a\",\"\",\"\",\"2011-06-05T01:02:03Z\"]"
    let new := "[\"b\",\"\",\"\",\"2011-06-05T01:02:03Z\"]"
    let catalog := "\x7b\"k\":" ++ old ++ ", \"\\u006b\" : " ++ new ++ "\x7d"
    ArrayText ["\x7b\"username\":\"a\"\x7d", "[\"b\",null,true,[\"x\"]] "] users ∧
      Shape.users.decode users = .ok [⟨"a", none, false, []⟩, ⟨"b", none, true, ["x"]⟩] ∧
      (∃ fault, Shape.users.decode (users ++ " ]") = .error (.malformed fault)) ∧
      TableText [("k", old), ("k", new)] catalog ∧
      ∃ table r, Shape.catalog.decode catalog = .ok table ∧ table.get? "k" = some r ∧ r.name = "b" := by
  intro users old new catalog
  have alone : ∀ t : String, Shape.Padded t.toList t := fun t => ⟨[], [], by simp, blanks_nil, blanks_nil⟩
  have object : WellFormed "\x7b\"username\":\"a\"\x7d".toList :=
    Tree.wellFormed_render Layout.sound_compact 0 (.object [("username", .string "a")])
  have array : WellFormed "[\"b\",null,true,[\"x\"]]".toList :=
    Tree.wellFormed_render Layout.sound_compact 0
      (.array [.string "b", .null, .boolean true, .array [.string "x"]])
  have record : ∀ name : String, WellFormed (Tree.render .compact 0
      (.array [.string name, .string "", .string "", .string "2011-06-05T01:02:03Z"])) :=
    fun _ => Tree.wellFormed_render Layout.sound_compact 0 _
  have listed : ArrayText ["\x7b\"username\":\"a\"\x7d", "[\"b\",null,true,[\"x\"]] "] users := by
    have newline : Blanks ['\n'] := by simp [Blanks, isSpace]
    refine ⟨[' '], "\x7b\"username\":\"a\"\x7d ,\n[\"b\",null,true,[\"x\"]]".toList, [],
      [⟨[], _, [' ']⟩, ⟨['\n'], _, []⟩], by decide +kernel, blanks_space, blanks_nil, ?_,
      .cons ⟨⟨blanks_nil, blanks_space⟩, object, alone _⟩ (.cons ⟨⟨newline, blanks_nil⟩, array,
        ⟨[], [' '], by decide +kernel, blanks_nil, blanks_space⟩⟩ .nil)⟩
    rfl
  have named : TableText [("k", old), ("k", new)] catalog := by
    have first := @Member.isEntry_of_read ⟨[], ['k'], [], ⟨[], _, []⟩⟩ "k"
      ⟨blanks_nil, blanks_nil, blanks_nil, blanks_nil⟩ (by decide +kernel) (record "a")
    have second := @Member.isEntry_of_read ⟨[' '], "\\u006b".toList, [' '], ⟨[' '], _, []⟩⟩ "k"
      ⟨blanks_space, blanks_space, blanks_space, blanks_nil⟩ (by decide +kernel) (record "b")
    refine ⟨_, ⟨[], ("\"k\":" ++ old ++ ", \"\\u006b\" : " ++ new).toList, [], _, by decide +kernel,
      blanks_nil, blanks_nil, ?_, .cons first (.cons second .nil)⟩,
      .cons ⟨by decide +kernel, alone _⟩ (.cons ⟨by decide +kernel, alone _⟩ .nil)⟩
    show _ = _
    decide +kernel
  have readOld : Shape.repository.decode old
      = .ok ⟨"a", "", "", ⟨1307235723, 0, by decide, by decide⟩, none, false⟩ := by
    decide +kernel
  have readNew : Shape.repository.decode new
      = .ok ⟨"b", "", "", ⟨1307235723, 0, by decide, by decide⟩, none, false⟩ := by
    decide +kernel
  obtain ⟨lists, tables⟩ := collections_decoded
  obtain ⟨taken, -, trailing⟩ := lists _ _ listed
  obtain ⟨held, succeeds, -⟩ := tables _ _ named
  have each : ∀ p ∈ [("k", old), ("k", new)], ∃ r, Shape.repository.decode p.2 = .ok r :=
    List.forall_mem_cons.2 ⟨⟨_, readOld⟩, List.forall_mem_singleton.2 ⟨_, readNew⟩⟩
  obtain ⟨table, decoded⟩ := succeeds.2 each
  refine ⟨listed, (taken _).2 (.cons (by decide +kernel) (.cons (by decide +kernel) .nil)),
    trailing " ]" (by simp [Blanks, isSpace]), named, table, _, decoded, ((held table decoded).1 "k" _).2
      ⟨_, ⟨[_], [], rfl, List.not_mem_nil⟩, readNew⟩, rfl⟩

end Courier
