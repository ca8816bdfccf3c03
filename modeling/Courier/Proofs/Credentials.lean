import Courier.Base64.Lemmas
import Courier.Credentials
import Courier.Text.Utf8.Lemmas
import Mathlib.Data.List.Basic

set_option autoImplicit false

/-! # What a header tells of credentials

The token of a header joins a user name and a secret by a colon, and the joined text can be read from it
(`Credentials.read?_header`). Who reads it parts it at the first colon. So the two are told apart if the
name has no colon, whatever the secret is; a name with a colon is cut there, and then other credentials
have the same header.
-/

namespace Courier

/-! ## Tokens -/

theorem basicToken_eq_iff_joined {username secret username' secret' : String} :
    basicToken username secret = basicToken username' secret' ↔
      username ++ ":" ++ secret = username' ++ ":" ++ secret' := by
  constructor
  · intro same
    -- Neither the letters nor the bytes of a text are those of another one.
    have letters := String.ofList_injective same
    exact String.toList_inj.1 (Utf8.encode_injective (Base64.encode_injective letters))
  · intro same
    unfold basicToken
    rw [same]

/-- The token of a pair without colons is that of no other pair, whatever colons this has. -/
theorem basicToken_eq_iff {username secret username' secret' : String} (plain : ':' ∉ username.toList)
    (plain' : ':' ∉ secret.toList) :
    basicToken username secret = basicToken username' secret' ↔
      username = username' ∧ secret = secret' := by
  rw [basicToken_eq_iff_joined, ← String.toList_inj]
  simp only [String.toList_append, List.append_assoc]
  show username.toList ++ ':' :: secret.toList = username'.toList ++ ':' :: secret'.toList ↔ _
  rw [List.append_cons_inj_of_notMem plain plain', String.toList_inj, String.toList_inj]
  simp

/-! ## Reading a token -/

/-- The text before the first colon of a text, and the text after it. -/
def partAtColon? : List Char → Option (List Char × List Char)
  | [] => none
  | c :: cs =>
    if c = ':' then some ([], cs) else (partAtColon? cs).map fun (before, after) => (c :: before, after)

theorem partAtColon?_append {before : List Char} (plain : ':' ∉ before) (after : List Char) :
    partAtColon? (before ++ ':' :: after) = some (before, after) := by
  induction before with
  | nil => simp [partAtColon?]
  | cons c before ih =>
    rw [List.mem_cons, not_or] at plain
    rw [List.cons_append, partAtColon?, if_neg (Ne.symm plain.1), ih plain.2]
    rfl

/-- A text is parted exactly if it has a colon, and no colon comes before the place. -/
theorem partAtColon?_eq_some_iff {cs before after : List Char} :
    partAtColon? cs = some (before, after) ↔ ':' ∉ before ∧ cs = before ++ ':' :: after := by
  constructor
  · intro parted
    induction cs generalizing before with
    | nil => cases parted
    | cons c cs ih =>
      rw [partAtColon?] at parted
      split at parted
      · next colon =>
        cases parted
        exact ⟨by simp, by rw [colon]; rfl⟩
      · next noColon =>
        obtain ⟨⟨before', after'⟩, parted', same⟩ := Option.map_eq_some_iff.1 parted
        obtain ⟨rfl, rfl⟩ := Prod.mk.inj same
        obtain ⟨plain, rfl⟩ := ih parted'
        exact ⟨by simp [plain, Ne.symm noColon], rfl⟩
  · rintro ⟨plain, rfl⟩
    exact partAtColon?_append plain after

namespace Credentials

/-- The user name and the secret that a header tells: after the scheme stands the Base64 of a text, which
is parted at its first colon. -/
def read? (header : String) : Option (String × String) := do
  let token ← header.toList.dropPrefix? "Basic ".toList
  let bytes ← Base64.decode token
  let cs ← (Utf8.decode bytes).toOption
  let (before, after) ← partAtColon? cs
  return (String.ofList before, String.ofList after)

theorem of?_cases (username secret : String) :
    (∃ c, of? username secret = some c ∧ c.username = username ∧ c.secret = secret) ∨
      of? username secret = none ∧ (username = "" ∨ secret = "") := by
  unfold of?
  split
  · exact .inl ⟨_, rfl, rfl, rfl⟩
  · next h => exact .inr ⟨rfl, by tauto⟩

/-- Credentials are made of the pair that they are made from. -/
theorem parts_of_of? {username secret : String} {c : Credentials} (given : of? username secret = some c) :
    c.username = username ∧ c.secret = secret := by
  rcases of?_cases username secret with ⟨d, made, parts⟩ | ⟨none, -⟩
  · rw [Option.some.inj (given.symm.trans made)]
    exact parts
  · rw [none] at given
    cases given

/-- From the header of credentials the two parts are read as they are parted by the first colon of both
together. -/
theorem read?_header (c : Credentials) :
    read? c.header = (partAtColon? (c.username.toList ++ ':' :: c.secret.toList)).map
      fun (before, after) => (String.ofList before, String.ofList after) := by
  have joined : (c.username ++ ":" ++ c.secret).toList = c.username.toList ++ ':' :: c.secret.toList := by
    simp only [String.toList_append, List.append_assoc]
    rfl
  have token : c.header.toList.dropPrefix? "Basic ".toList
      = some (Base64.encode (Utf8.encode (c.username.toList ++ ':' :: c.secret.toList))) := by
    rw [List.dropPrefix?_eq_some_iff]
    refine ⟨"Basic ".toList, ?_, beq_self_eq_true _⟩
    rw [← joined]
    show ("Basic " ++ String.ofList _).toList = _
    rw [String.toList_append]
    exact congrArg ("Basic ".toList ++ ·) String.toList_ofList
  unfold read?
  -- Nothing of the joined text is lost in its bytes and their letters.
  simp only [token, Option.bind_eq_bind, Option.bind_some, Base64.decode_encode, Utf8.decode_encode,
    Except.toOption]
  cases partAtColon? (c.username.toList ++ ':' :: c.secret.toList) with
  | none => rfl
  | some parts => rfl

theorem header_eq_iff {c d : Credentials} :
    c.header = d.header ↔ c.username ++ ":" ++ c.secret = d.username ++ ":" ++ d.secret := by
  rw [← basicToken_eq_iff_joined]
  unfold header
  rw [← String.toList_inj, ← String.toList_inj, String.toList_append, String.toList_append,
    List.append_cancel_left_eq]

theorem read?_header_eq_some_iff {c : Credentials} {name word : String} :
    read? c.header = some (name, word) ↔
      ':' ∉ name.toList ∧ name ++ ":" ++ word = c.username ++ ":" ++ c.secret := by
  have parted : read? c.header = some (name, word) ↔
      partAtColon? (c.username.toList ++ ':' :: c.secret.toList) = some (name.toList, word.toList) := by
    rw [read?_header, Option.map_eq_some_iff]
    constructor
    · rintro ⟨⟨before, after⟩, parts, same⟩
      obtain ⟨rfl, rfl⟩ := Prod.mk.inj same
      rw [parts, String.toList_ofList, String.toList_ofList]
    · intro parts
      exact ⟨_, parts, by simp only [String.ofList_toList]⟩
  rw [parted, partAtColon?_eq_some_iff, ← String.toList_inj]
  simp only [String.toList_append, List.append_assoc]
  exact and_congr_right fun _ => eq_comm

theorem exists_read?_header (c : Credentials) : ∃ name word, read? c.header = some (name, word) := by
  obtain ⟨before, after, parts, plain⟩ :=
    List.eq_append_cons_of_mem (show ':' ∈ c.username.toList ++ ':' :: c.secret.toList by simp)
  refine ⟨String.ofList before, String.ofList after, ?_⟩
  rw [read?_header, parts, partAtColon?_append plain]
  rfl

/-- What a header tells of the credentials it is made from. A name without a colon and the secret with it
are read back, whatever colons the secret has; from any other header another pair is read, but the two
texts joined are the same. Two headers are the same exactly if the joined texts are. So they differ for
different credentials whose names have no colon, and for credentials that differ in one part only. -/
theorem header_identifies {username secret username' secret' : String} {c d : Credentials}
    (given : of? username secret = some c) (given' : of? username' secret' = some d) :
    (∃ name word, read? c.header = some (name, word) ∧
      name ++ ":" ++ word = username ++ ":" ++ secret) ∧
    (read? c.header = some (username, secret) ↔ ':' ∉ username.toList) ∧
    (c.header = d.header ↔ username ++ ":" ++ secret = username' ++ ":" ++ secret') ∧
    (':' ∉ username.toList → ':' ∉ username'.toList →
      (c.header = d.header ↔ username = username' ∧ secret = secret')) ∧
    (c.header = d.header → (username = username' ↔ secret = secret')) := by
  obtain ⟨rfl, rfl⟩ := parts_of_of? given
  obtain ⟨rfl, rfl⟩ := parts_of_of? given'
  have readBack : read? c.header = some (c.username, c.secret) ↔ ':' ∉ c.username.toList := by
    rw [read?_header_eq_some_iff, and_iff_left rfl]
  refine ⟨?_, readBack, header_eq_iff, ?_, ?_⟩
  · obtain ⟨name, word, told⟩ := exists_read?_header c
    exact ⟨name, word, told, (read?_header_eq_some_iff.1 told).2⟩
  · intro plain plain'
    constructor
    · intro same
      -- The same pair is read from both headers.
      have told := readBack.2 plain
      rw [same, read?_header_eq_some_iff.2 ⟨plain', rfl⟩] at told
      exact (Prod.mk.inj (Option.some.inj told)).imp Eq.symm Eq.symm
    · rintro ⟨name, word⟩
      rw [header_eq_iff, name, word]
  · intro same
    rw [header_eq_iff, ← String.toList_inj] at same
    simp only [String.toList_append, List.append_assoc] at same
    constructor
    · intro name
      rw [name] at same
      exact String.toList_inj.1 (List.append_cancel_left (List.append_cancel_left same))
    · intro word
      rw [word] at same
      exact String.toList_inj.1 (List.append_cancel_right same)

/-- A secret with a colon is read back, and a longer one has another header. -/
theorem header_identifies_alice :
    let c : Credentials := ⟨"alice", "p:w", by decide, by decide⟩
    let d : Credentials := ⟨"alice", "p:w:", by decide, by decide⟩
    read? c.header = some ("alice", "p:w") ∧ c.header ≠ d.header := by
  intro c d
  have given : of? "alice" "p:w" = some c := rfl
  have given' : of? "alice" "p:w:" = some d := rfl
  obtain ⟨-, readBack, -, plain, -⟩ := header_identifies given given'
  refine ⟨readBack.2 (by decide), fun same => ?_⟩
  exact absurd ((plain (by decide) (by decide)).1 same).2 (by decide)

/-- A name with a colon is not read back, and other credentials have the same header. -/
theorem header_ambiguous :
    let c : Credentials := ⟨"a:b", "c", by decide, by decide⟩
    let d : Credentials := ⟨"a", "b:c", by decide, by decide⟩
    of? "a:b" "c" = some c ∧ of? "a" "b:c" = some d ∧
      read? c.header = some ("a", "b:c") ∧ c.header = d.header ∧ c ≠ d := by
  intro c d
  refine ⟨rfl, rfl, ?_, ?_, by decide⟩
  · rw [read?_header_eq_some_iff]
    decide
  · rw [header_eq_iff]
    decide

end Credentials

end Courier
