import Courier.Proofs.Fetching

set_option autoImplicit false

/-! # Reading a body piece by piece

A body is read from a source, which gives some bytes at each read until it gives none, or fails
(`Source.HandsOut`). It does not matter how many bytes a read gives: the loop keeps those of all pieces so far
(`joinReads_pieces`), and only when the body has ended it is asked whether they are a text. So the text depends
on the bytes alone, and one read more than there are pieces settles it.
-/

namespace Courier

/-! ## Sources -/

/-- Where a body is read from: what the next read gives, and the state after it. -/
abbrev Source (σ : Type) := σ → BodyRead × σ

namespace Source

variable {σ : Type} (source : Source σ)

def reads : Nat → σ → List BodyRead
  | 0, _ => []
  | count + 1, state => (source state).1 :: reads count (source state).2

/-- From one state to another the source gives the pieces, one at each read, and none of them is empty. -/
inductive HandsOut : σ → List (List UInt8) → σ → Prop where
  | nil {state : σ} : HandsOut state [] state
  | cons {state next last : σ} {piece : List UInt8} {pieces : List (List UInt8)}
      (read : source state = (.piece piece, next)) (nonempty : piece ≠ []) (more : HandsOut next pieces last) :
      HandsOut state (piece :: pieces) last

variable {source} {state last : σ} {pieces : List (List UInt8)}

theorem HandsOut.nonempty (h : source.HandsOut state pieces last) : ∀ piece ∈ pieces, piece ≠ [] := by
  induction h with
  | nil => exact fun _ hp => absurd hp List.not_mem_nil
  | cons _ nonempty _ ih => exact List.forall_mem_cons.2 ⟨nonempty, ih⟩

theorem HandsOut.reads (h : source.HandsOut state pieces last) {count : Nat} (enough : pieces.length < count) :
    ∃ rest, source.reads count state = pieces.map .piece ++ (source last).1 :: rest := by
  induction h generalizing count with
  | nil =>
    obtain ⟨count, rfl⟩ := Nat.exists_eq_add_one_of_ne_zero (Nat.ne_of_gt enough)
    exact ⟨_, rfl⟩
  | cons read _ _ ih =>
    rw [List.length_cons] at enough
    obtain ⟨count, rfl⟩ := Nat.exists_eq_add_one_of_ne_zero (Nat.ne_of_gt (Nat.zero_lt_of_lt enough))
    obtain ⟨rest, others⟩ := ih (Nat.lt_of_succ_lt_succ enough)
    refine ⟨rest, ?_⟩
    show (source _).1 :: source.reads count (source _).2 = _
    rw [read, others]
    rfl

end Source

/-! ## The loop -/

/-- What has been read so far is the bytes of all pieces so far. -/
theorem joinReads_pieces {pieces : List (List UInt8)} (nonempty : ∀ piece ∈ pieces, piece ≠ [])
    (acc : List UInt8) (reads : List BodyRead) :
    joinReads acc (pieces.map .piece ++ reads) = joinReads (pieces.flatten.reverse ++ acc) reads := by
  induction pieces generalizing acc with
  | nil => rfl
  | cons piece pieces ih =>
    obtain ⟨first, others⟩ := List.forall_mem_cons.1 nonempty
    obtain ⟨b, bs, rfl⟩ := List.exists_cons_of_ne_nil first
    show joinReads ((b :: bs).reverseAux acc) (pieces.map .piece ++ reads) = _
    rw [ih others, List.reverseAux_eq, List.flatten_cons, List.reverse_append, List.append_assoc]

def textOf (bytes : List UInt8) : Except Failure String :=
  match Utf8.decode bytes with
  | .ok cs => .ok (String.ofList cs)
  | .error fault => .error (.invalidUtf8 fault)

/-- When the body ends after the pieces, its text is that of their bytes. No read is made after the end. -/
theorem bodyText_ended {pieces : List (List UInt8)} (nonempty : ∀ piece ∈ pieces, piece ≠ [])
    (rest : List BodyRead) :
    bodyText (pieces.map .piece ++ .piece [] :: rest) = textOf pieces.flatten := by
  unfold bodyText
  rw [joinReads_pieces nonempty, List.append_nil]
  simp only [joinReads, List.reverse_reverse]
  rfl

/-- When a read fails after the pieces, nothing is left of them. -/
theorem bodyText_cut {pieces : List (List UInt8)} (nonempty : ∀ piece ∈ pieces, piece ≠ []) (reason : String)
    (rest : List BodyRead) :
    bodyText (pieces.map .piece ++ .failed reason :: rest) = .error (.io reason) := by
  unfold bodyText
  rw [joinReads_pieces nonempty]
  rfl

theorem textOf_eq_ok_iff {bytes : List UInt8} {text : String} :
    textOf bytes = .ok text ↔ Utf8.encode text.toList = bytes := by
  unfold textOf
  cases decoded : Utf8.decode bytes with
  | error fault =>
    refine iff_of_false (fun h => by cases h) fun same => ?_
    rw [Utf8.decode_eq_ok_iff.2 same] at decoded
    cases decoded
  | ok cs =>
    rw [← Utf8.decode_eq_ok_iff, decoded, Except.ok.injEq, Except.ok.injEq, ← String.toList_inj,
      String.toList_ofList]

/-- Bytes that are no text have the fault that tells it. -/
theorem textOf_eq_invalidUtf8_iff {bytes : List UInt8} :
    (∃ fault, textOf bytes = .error (.invalidUtf8 fault)) ↔
      ∀ text : String, Utf8.encode text.toList ≠ bytes := by
  constructor
  · rintro ⟨fault, failed⟩ text same
    rw [textOf_eq_ok_iff.2 same] at failed
    cases failed
  · intro noText
    cases decoded : Utf8.decode bytes with
    | error fault => exact ⟨fault, by unfold textOf; rw [decoded]⟩
    | ok cs => exact absurd (Utf8.encode_of_decode decoded) (by simpa using noText (String.ofList cs))

/-! ## The result -/

/-- What comes of reading a body, when the source gives pieces and then ends or fails. One read more than there
are pieces settles it, and more of them change nothing. After an end there is a text exactly if the bytes of all
pieces together are those of the text, and they are no text otherwise; so it is the same for all sources that
give these bytes. After a failure there is nothing but the failure. -/
theorem bodyText_of_source {σ : Type} {source : Source σ} {state last : σ} {pieces : List (List UInt8)}
    (handed : source.HandsOut state pieces last) :
    ((source last).1 = .piece [] → ∀ count, pieces.length < count →
      let result := bodyText (source.reads count state)
      (∀ text, result = .ok text ↔ Utf8.encode text.toList = pieces.flatten) ∧
      ((∃ fault, result = .error (.invalidUtf8 fault)) ↔
        ∀ text : String, Utf8.encode text.toList ≠ pieces.flatten) ∧
      ∀ {τ : Type} {source' : Source τ} {state' last' : τ} {pieces' : List (List UInt8)},
        source'.HandsOut state' pieces' last' → (source' last').1 = .piece [] →
        pieces'.flatten = pieces.flatten →
        ∀ count', pieces'.length < count' → bodyText (source'.reads count' state') = result) ∧
    ∀ reason, (source last).1 = .failed reason → ∀ count, pieces.length < count →
      bodyText (source.reads count state) = .error (.io reason) := by
  have ended {τ : Type} {source : Source τ} {state last : τ} {pieces : List (List UInt8)}
      (handed : source.HandsOut state pieces last) (ends : (source last).1 = .piece []) (count : Nat)
      (enough : pieces.length < count) : bodyText (source.reads count state) = textOf pieces.flatten := by
    obtain ⟨rest, reads⟩ := handed.reads enough
    rw [reads, ends, bodyText_ended handed.nonempty]
  refine ⟨fun ends count enough => ?_, fun reason fails count enough => ?_⟩
  · simp only [ended handed ends count enough]
    refine ⟨fun _ => textOf_eq_ok_iff, textOf_eq_invalidUtf8_iff, ?_⟩
    intro τ source' state' last' pieces' handed' ends' same count' enough'
    rw [ended handed' ends' count' enough', same]
  · obtain ⟨rest, reads⟩ := handed.reads enough
    rw [reads, fails, bodyText_cut handed.nonempty]

/-- A character of two bytes lies across the end of a piece of 4096 bytes. When the body ends after the next
piece, it is a text, and when a read fails there, it is not. -/
theorem bodyText_of_source_across_pieces :
    let source : Source (List BodyRead)
      | [] => (.piece [], [])
      | read :: reads => (read, reads)
    let pieces := [List.replicate 4095 0x61 ++ [0xC3], [0xA9]]
    let text := String.ofList (List.replicate 4095 'a' ++ ['é'])
    bodyText (source.reads 3 (pieces.map .piece)) = .ok text ∧
      bodyText (source.reads 3 (pieces.map .piece ++ [.failed "the body is cut short"]))
        = .error (.io "the body is cut short") := by
  intro source pieces text
  have handed (more : List BodyRead) : source.HandsOut (pieces.map .piece ++ more) pieces more :=
    .cons rfl (List.append_ne_nil_of_right_ne_nil _ (by decide)) (.cons rfl (by decide) .nil)
  have bytes (count : Nat) : Utf8.encode (List.replicate count 'a' ++ ['é'])
      = [List.replicate count 0x61 ++ [0xC3], [0xA9]].flatten := by
    have letter : String.utf8EncodeChar 'a' = [0x61] := by decide
    have last : Utf8.encode ['é'] = [0xC3, 0xA9] := by decide
    rw [Utf8.encode_append, last, Utf8.encode, List.flatMap_replicate, letter,
      List.flatten_replicate_singleton]
    simp
  have whole := handed []
  rw [List.append_nil] at whole
  refine ⟨(((bodyText_of_source whole).1 rfl 3 (by decide)).1 text).2 ?_,
    (bodyText_of_source (handed _)).2 _ rfl 3 (by decide)⟩
  rw [String.toList_ofList]
  exact bytes 4095

end Courier
