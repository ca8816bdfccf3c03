import Courier.Http.Head
import Courier.Proofs.Http.Header
import Courier.Text.Utf8.Lemmas

set_option autoImplicit false

/-! # Heads that read back

Headers whose names are tokens and whose values are plain stand on one line each, whatever else the values
say: no value ends a line, and no name ends before its colon. So a reader of the head finds exactly these
headers, as they arrive, and takes nothing else for one (`Head.lines_write`).
-/

namespace Courier

/-! ## Text of ASCII -/

theorem Utf8.encode_ascii {cs : List Char} (h : ∀ c ∈ cs, c.toNat < 0x80) :
    encode cs = cs.map fun c => UInt8.ofNat c.toNat := by
  induction cs with
  | nil => rfl
  | cons c cs ih =>
    have one : String.utf8EncodeChar c = [UInt8.ofNat c.toNat] := by
      have small := h c List.mem_cons_self
      unfold String.utf8EncodeChar
      simp only [show c.val.toNat = c.toNat from rfl]
      rw [if_pos (by omega)]
    rw [encode_cons, one, ih fun d hd => h d (List.mem_cons_of_mem _ hd)]
    rfl

theorem Latin.decode_encode {cs : List Char} (h : ∀ c ∈ cs, c.toNat < 0x80) :
    decode (Utf8.encode cs) = cs := by
  have same : ∀ c ∈ cs, charOf (UInt8.ofNat c.toNat) = c := by
    intro c hc
    have small := h c hc
    unfold charOf
    rw [Utf8.toNat_ofNat (by omega), Char.ofNat_toNat]
  unfold decode
  rw [Utf8.encode_ascii h, List.map_map]
  exact (List.map_congr_left same).trans (List.map_id cs)

/-! ## One line -/

namespace Head

def content (header : String × String) : List Char := header.1.toList ++ [':', ' '] ++ header.2.toList

variable {header : String × String}

theorem isPlain_of_mem_content (h : Headers.IsPlainHeader header) {c : Char} (hc : c ∈ content header) :
    Headers.isPlain c = true := by
  obtain ⟨name, value⟩ := h
  unfold Headers.isName at name
  rw [Bool.and_eq_true, List.all_eq_true] at name
  unfold content at hc
  rw [List.mem_append, List.mem_append] at hc
  rcases hc with (hc | hc) | hc
  · exact Headers.isPlain_of_isVisible (Headers.isVisible_of_isTokenChar (name.2 c hc))
  · have all : [':', ' '].all Headers.isPlain = true := by decide
    exact List.all_eq_true.1 all c hc
  · exact List.all_eq_true.1 value c hc

theorem content_ascii (h : Headers.IsPlainHeader header) : ∀ c ∈ content header, c.toNat < 0x80 := by
  intro c hc
  have small := Headers.lt_of_isPlain (isPlain_of_mem_content h hc)
  omega

/-- A line ends where it is written to end: no plain text ends one. -/
theorem cutLine?_line (h : Headers.IsPlainHeader header) (rest : List UInt8) :
    cutLine? (line header ++ rest) = some (Utf8.encode (content header), rest) := by
  let bytes := Utf8.encode (content header)
  have noEnd : ∀ b ∈ bytes ++ [13], (b != 10) = true := by
    intro b hb
    rw [bne_iff_ne]
    rintro rfl
    rcases List.mem_append.1 hb with hb | hb
    · rw [show bytes = _ from Utf8.encode_ascii (content_ascii h)] at hb
      obtain ⟨c, hc, code⟩ := List.mem_map.1 hb
      have plain := isPlain_of_mem_content h hc
      have small := content_ascii h c hc
      have feed : c = '\n' := by
        rw [← Char.ofNat_toNat c, ← Utf8.toNat_ofNat (n := c.toNat) (by omega), code]
        rfl
      rw [feed] at plain
      exact absurd plain (by decide)
    · exact absurd hb (by decide)
  have whole : line header ++ rest = (bytes ++ [13]) ++ 10 :: rest := by
    show Utf8.encode (content header) ++ lineEnd ++ rest = _
    simp [bytes, lineEnd]
  have cut : (line header ++ rest).span (· != 10) = (bytes ++ [13], 10 :: rest) := by
    rw [whole]
    exact span_append_cons noEnd rfl rest
  unfold cutLine?
  rw [cut]
  simp [bytes]

theorem header?_content (h : Headers.IsPlainHeader header) :
    header? (Utf8.encode (content header)) = some (Headers.arrived header) := by
  obtain ⟨name, value⟩ := header
  have token : ∀ c ∈ name.toList, (c != ':') = true := by
    intro c hc
    have named := h.1
    unfold Headers.isName at named
    rw [Bool.and_eq_true, List.all_eq_true] at named
    rw [bne_iff_ne]
    rintro rfl
    exact absurd (named.2 _ hc) (by decide)
  -- No token has a colon, so the first one is that after the name.
  have cut : (content (name, value)).span (· != ':') = (name.toList, ':' :: ' ' :: value.toList) := by
    unfold content
    rw [List.append_assoc]
    exact span_append_cons token rfl _
  have blank : Headers.trim (' ' :: value.toList) = Headers.trim value.toList := rfl
  have valid : Headers.isValue (String.ofList (Headers.trim value.toList)) = true := by
    apply Headers.isValue_of_plain
    rw [String.toList_ofList, List.all_eq_true]
    exact fun c hc => List.all_eq_true.1 h.2 c (Headers.mem_of_mem_trim hc)
  have arrives : Headers.arrived (name, String.ofList (Headers.trim value.toList))
      = Headers.arrived (name, value) := by
    unfold Headers.arrived
    rw [String.toList_ofList, Headers.trim_trim]
  unfold header?
  rw [Latin.decode_encode (content_ascii h), cut]
  simp only [blank, String.ofList_toList]
  rw [show Headers.isName name = true from h.1, valid, arrives]
  rfl

/-! ## All lines -/

/-- Plain headers are read back one by one, as they arrive, and what follows the head is left. -/
theorem lines_write {headers : Headers} (h : ∀ header ∈ headers, Headers.IsPlainHeader header)
    {allowance : Nat} (room : headers.length ≤ allowance) (rest : List UInt8) :
    lines allowance (write headers ++ rest) = .ok (headers.map Headers.arrived, rest) := by
  induction headers generalizing allowance with
  | nil =>
    have cut : cutLine? (write [] ++ rest) = some ([], rest) := by
      have empty : ([13] ++ 10 :: rest).span (· != 10) = ([13], 10 :: rest) :=
        span_append_cons (by simp) rfl rest
      unfold cutLine?
      rw [show write [] ++ rest = [13] ++ 10 :: rest from rfl, empty]
      rfl
    unfold lines
    rw [cut]
    rfl
  | cons header headers ih =>
    have plain := h header List.mem_cons_self
    have split : write (header :: headers) ++ rest = line header ++ (write headers ++ rest) := by
      simp [write]
    obtain ⟨b, bs, first⟩ : ∃ b bs, Utf8.encode (content header) = b :: bs := by
      refine List.exists_cons_of_ne_nil fun none => ?_
      have none : content header = [] := Utf8.encode_injective none
      simp [content] at none
    have read := header?_content plain
    rw [first] at read
    cases allowance with
    | zero => simp at room
    | succ allowance =>
      have later := ih (fun other ho => h other (List.mem_cons_of_mem _ ho)) (Nat.le_of_succ_le_succ room)
      unfold lines
      rw [split, cutLine?_line plain, first]
      simp only [read, later, List.map_cons]

end Head

end Courier
