import Courier.Proofs.Http.Header
import Courier.Proofs.Lists
import Courier.Proofs.Payload
import Courier.Proofs.Text.Utf8
import Courier.Service.Basic

set_option autoImplicit false

/-! # What the service keeps

The service keeps the uploads it has accepted, in the order in which they came, and nothing else. A step
either accepts an upload and puts it at the end, or leaves everything as it is (`handle_accepted`,
`handle_other`); so a history of requests and answers tells what is kept (`Kept`), and the invariant goes
from one request to all of them by induction.
-/

namespace Courier.Service

open Json

/-! ## Uploads in a history -/

def uploadPath : List Char := "/upload".toList

def Accepted (inquiry : Inquiry) (reply : Reply) : Prop :=
  inquiry.method = "POST" ∧ inquiry.target.path = uploadPath ∧ reply.status = 201

instance (inquiry : Inquiry) (reply : Reply) : Decidable (Accepted inquiry reply) := by
  unfold Accepted; infer_instance

/-- The uploads of a history that have been accepted, in order. -/
def accepted (history : List (Inquiry × Reply)) : List Inquiry :=
  (history.filter fun (inquiry, reply) => decide (Accepted inquiry reply)).map Prod.fst

/-- The first of the headers with the name, which may be spelled with capitals, has the value. -/
def FirstUnder (name : String) (headers : Headers) (value : String) : Prop :=
  ∃ before spelled after, headers = before ++ (spelled, value) :: after ∧
    spelled.toList.map Char.toLower = name.toList ∧
    ∀ header ∈ before, header.1.toList.map Char.toLower ≠ name.toList

/-- What is shown of the headers with the name: the value of the first one if it is of visible ASCII, spaces and
tabs, and nothing if it is not or if there is none. -/
def Shows (headers : Headers) (name : String) (shown : Option String) : Prop :=
  ∀ value, shown = some value ↔ FirstUnder name headers value ∧
    ∀ c ∈ value.toList, c = ' ' ∨ c = '\t' ∨ ('!' ≤ c ∧ c ≤ '~')

/-- The upload has the body of the request, and of its headers what is shown of them. -/
structure KeptAs (inquiry : Inquiry) (upload : Upload) : Prop where
  body : Utf8.encode upload.body.toList = inquiry.body
  authorization : Shows inquiry.headers "authorization" upload.headers.authorization
  acceptCharset : Shows inquiry.headers "accept-charset" upload.headers.acceptCharset
  cacheControl : Shows inquiry.headers "cache-control" upload.headers.cacheControl
  contentType : Shows inquiry.headers "content-type" upload.headers.contentType
  contentLength : Shows inquiry.headers "content-length" upload.headers.contentLength

theorem shows_plainHeader? (headers : Headers) {name : String}
    (small : name.toList.map Char.toLower = name.toList) : Shows headers name (plainHeader? headers name) := by
  intro value
  have same (spelled : String) : Headers.sameName spelled name = true ↔
      spelled.toList.map Char.toLower = name.toList := by
    rw [Headers.sameName_iff, small]
  unfold plainHeader? FirstUnder
  simp only [Option.filter_eq_some_iff, Headers.get?_eq_some_iff, List.all_eq_true, Headers.isPlain_iff, same,
    ← Bool.not_eq_true]

theorem keptAs_of_seen {inquiry : Inquiry} {upload : Upload} (headers : upload.headers = seen inquiry.headers)
    (body : Utf8.encode upload.body.toList = inquiry.body) : KeptAs inquiry upload := by
  refine ⟨body, ?_, ?_, ?_, ?_, ?_⟩
  all_goals
    rw [headers]
    exact shows_plainHeader? _ (by decide)

/-- After a history, exactly the uploads that were accepted in it are kept, in order. -/
def Kept (history : List (Inquiry × Reply)) (store : Store) : Prop :=
  List.Forall₂ KeptAs (accepted history) store

theorem accepted_append (history : List (Inquiry × Reply)) (inquiry : Inquiry) (reply : Reply) :
    accepted (history ++ [(inquiry, reply)])
      = accepted history ++ if Accepted inquiry reply then [inquiry] else [] := by
  unfold accepted
  rw [List.filter_append, List.map_append]
  by_cases h : Accepted inquiry reply
  · rw [if_pos h, List.filter_cons_of_pos (by simpa using h)]
    rfl
  · rw [if_neg h, List.filter_cons_of_neg (by simpa using h)]
    rfl

/-! ## One request -/

/-- No other path than that of uploads leads to them. -/
theorem ofPath?_eq_upload {path : List Char} :
    Route.ofPath? path = some .upload ↔ path = uploadPath := by
  constructor
  · intro h
    unfold Route.ofPath? at h
    split at h
    · next text route found =>
      have here := List.mem_of_find?_eq_some found
      have same : text.toList = path := by simpa using List.find?_some found
      obtain rfl : route = .upload := Option.some.inj h
      rw [← same, show text = "/upload" by simpa [Route.fixed] using here]
      rfl
    · split at h
      · -- Else the path is that of a status, or leads nowhere.
        simp only at h
        split at h <;> simp at h
      · cases h
  · rintro rfl
    rfl

theorem upload_long {inquiry : Inquiry} (long : bodyLimit < inquiry.body.length) :
    (upload inquiry).1.status = 413 ∧ (upload inquiry).2 = none := by
  unfold upload
  rw [if_pos long]
  exact ⟨rfl, rfl⟩

theorem upload_noText {inquiry : Inquiry} (short : inquiry.body.length ≤ bodyLimit)
    (noText : ∀ cs, Utf8.encode cs ≠ inquiry.body) :
    (upload inquiry).1.status = 400 ∧ (upload inquiry).2 = none := by
  unfold upload
  rw [if_neg (Nat.not_lt.2 short)]
  cases read : Utf8.decode inquiry.body with
  | error fault => exact ⟨rfl, rfl⟩
  | ok cs => exact absurd (Utf8.encode_of_decode read) (noText cs)

theorem upload_text {inquiry : Inquiry} (short : inquiry.body.length ≤ bodyLimit) {cs : List Char}
    (text : Utf8.encode cs = inquiry.body) :
    upload inquiry = (.bare 201, some ⟨seen inquiry.headers, String.ofList cs⟩) := by
  unfold upload
  rw [if_neg (Nat.not_lt.2 short), Utf8.decode_eq_ok_iff.2 text]

theorem handle_upload (store : Store) {inquiry : Inquiry} (post : inquiry.method = "POST")
    (path : inquiry.target.path = uploadPath) :
    handle store inquiry = ((upload inquiry).1, store ++ (upload inquiry).2.toList) := by
  unfold handle
  rw [ofPath?_eq_upload.2 path]
  simp only [answer, if_pos post]

/-- A POST to the path of uploads is accepted if its body is short enough and a text; else the status of
the answer tells which of the two fails. -/
theorem accepted_iff (store : Store) {inquiry : Inquiry} (post : inquiry.method = "POST")
    (path : inquiry.target.path = uploadPath) :
    (handle store inquiry).1.status = 201 ↔
      inquiry.body.length ≤ bodyLimit ∧ ∃ cs, Utf8.encode cs = inquiry.body := by
  rw [handle_upload store post path]
  -- The length is looked at before the text.
  by_cases long : bodyLimit < inquiry.body.length
  · rw [(upload_long long).1]
    exact ⟨fun h => absurd h (by decide), fun h => absurd h.1 (Nat.not_le.2 long)⟩
  · have short := Nat.le_of_not_lt long
    by_cases text : ∃ cs, Utf8.encode cs = inquiry.body
    · obtain ⟨cs, text⟩ := text
      rw [upload_text short text]
      exact ⟨fun _ => ⟨short, cs, text⟩, fun _ => rfl⟩
    · rw [(upload_noText short (not_exists.1 text)).1]
      exact ⟨fun h => absurd h (by decide), fun h => absurd h.2 text⟩

/-- An upload that is accepted goes to the end of what is kept. -/
theorem handle_accepted {store : Store} {inquiry : Inquiry}
    (h : Accepted inquiry (handle store inquiry).1) :
    ∃ upload : Upload, upload.headers = seen inquiry.headers ∧
      Utf8.encode upload.body.toList = inquiry.body ∧ (handle store inquiry).2 = store ++ [upload] := by
  obtain ⟨post, path, status⟩ := h
  obtain ⟨short, cs, text⟩ := (accepted_iff store post path).1 status
  refine ⟨⟨seen inquiry.headers, String.ofList cs⟩, rfl, ?_, ?_⟩
  · rw [String.toList_ofList, text]
  · rw [handle_upload store post path, upload_text short text]
    rfl

/-- Every other request leaves what is kept as it is. -/
theorem handle_other {store : Store} {inquiry : Inquiry}
    (h : ¬Accepted inquiry (handle store inquiry).1) : (handle store inquiry).2 = store := by
  by_cases uploads : inquiry.method = "POST" ∧ inquiry.target.path = uploadPath
  · obtain ⟨post, path⟩ := uploads
    -- An upload that is not accepted is one of the two that are refused.
    have refused : (handle store inquiry).1.status ≠ 201 := fun status => h ⟨post, path, status⟩
    rw [Ne, accepted_iff store post path] at refused
    rw [handle_upload store post path]
    by_cases long : bodyLimit < inquiry.body.length
    · rw [(upload_long long).2]
      exact List.append_nil store
    · have short := Nat.le_of_not_lt long
      have noText : ∀ cs, Utf8.encode cs ≠ inquiry.body := fun cs text => refused ⟨short, cs, text⟩
      rw [(upload_noText short noText).2]
      exact List.append_nil store
  · -- Whatever else is asked, the store is passed on.
    unfold handle
    cases found : Route.ofPath? inquiry.target.path with
    | none => rfl
    | some route =>
      cases route with
      | upload =>
        have path := ofPath?_eq_upload.1 found
        have notPost : inquiry.method ≠ "POST" := fun post => uploads ⟨post, path⟩
        simp only [answer, if_neg notPost]
      | _ => rfl

/-! ## All requests -/

/-- One request keeps the invariant. -/
theorem Kept.handle {history : List (Inquiry × Reply)} {store : Store} (h : Kept history store)
    (inquiry : Inquiry) :
    Kept (history ++ [(inquiry, (handle store inquiry).1)]) (handle store inquiry).2 := by
  unfold Kept
  rw [accepted_append]
  by_cases new : Accepted inquiry (Service.handle store inquiry).1
  · obtain ⟨upload, headers, body, next⟩ := handle_accepted new
    rw [if_pos new, next]
    exact List.rel_append h (.cons (keptAs_of_seen headers body) .nil)
  · rw [if_neg new, handle_other new, List.append_nil]
    exact h

theorem Kept.run {history : List (Inquiry × Reply)} {store : Store} (h : Kept history store)
    (inquiries : List Inquiry) :
    Kept (history ++ inquiries.zip (run store inquiries).1) (run store inquiries).2 := by
  -- The history grows at its end, while the requests are taken from their front.
  induction inquiries generalizing history store with
  | nil => simpa [Service.run] using h
  | cons inquiry inquiries ih => simpa [Service.run] using ih (h.handle inquiry)

theorem length_run (store : Store) (inquiries : List Inquiry) :
    (run store inquiries).1.length = inquiries.length := by
  induction inquiries generalizing store with
  | nil => rfl
  | cons inquiry inquiries ih => simp [run, ih]

/-! ## Reading the last upload -/

theorem seenHeaders_faithful : SeenHeaders.record.shape.Faithful id 1 := by
  have fields : SeenHeaders.record.fields.Faithful _ 0 :=
    .written Shape.optionalText_faithful (fun _ => rfl) <|
    .written Shape.optionalText_faithful (fun _ => rfl) <|
    .written Shape.optionalText_faithful (fun _ => rfl) <|
    .written Shape.optionalText_faithful (fun _ => rfl) <|
    .written Shape.optionalText_faithful (fun _ => rfl) .nil
  exact Record.faithful fields (by decide) fun _ => rfl

theorem upload_faithful : Upload.record.shape.Faithful id 2 := by
  have fields : Upload.record.fields.Faithful _ 1 :=
    .written seenHeaders_faithful (fun _ => rfl) <|
    .written (Shape.text_faithful.mono (Nat.zero_le _)) (fun _ => rfl) .nil
  exact Record.faithful fields (by decide) fun _ => rfl

/-- A document that a faithful shape has written holds its data. -/
theorem decode_document {α : Type} {shape : Shape α} {keep : α → α} {height : Nat}
    (h : shape.Faithful keep height) (room : height ≤ nestingLimit) (a : α) :
    shape.decode (Reply.document (shape.write a)).body = .ok (keep a) :=
  h.decode_render room Layout.sound_compact 0 a

theorem decode_document_upload (upload : Upload) :
    Upload.record.shape.decode (Reply.document (Upload.record.shape.write upload)).body
      = .ok upload :=
  decode_document upload_faithful (by decide) upload

/-- A GET of the path of uploads is answered by the last one. -/
theorem handle_get_upload (store : Store) {inquiry : Inquiry} (get : inquiry.method = "GET")
    (path : inquiry.target.path = uploadPath) : handle store inquiry = (lastUpload store, store) := by
  unfold handle
  rw [ofPath?_eq_upload.2 path]
  show (if inquiry.method = "POST" then _ else (readOnly inquiry.method _ _, store)) = _
  rw [if_neg (by rw [get]; decide), get]
  rfl

/-- After any requests, a service that was fresh keeps exactly the uploads that it has answered as
accepted, in their order, each with its body and what is shown of its headers. An upload is accepted if its
body is a text within the limit. Whatever else is asked next leaves the store as it is; and a GET of the uploads
gives the last accepted one, or finds nothing if there has been none. -/
theorem run_keeps_accepted (inquiries : List Inquiry) :
    let replies := (run [] inquiries).1
    let store := (run [] inquiries).2
    let history := inquiries.zip replies
    replies.length = inquiries.length ∧
    List.Forall₂ KeptAs (accepted history) store ∧
    (∀ next, ¬Accepted next (handle store next).1 → (handle store next).2 = store) ∧
    (∀ next, Accepted next (handle store next).1 ↔
      next.method = "POST" ∧ next.target.path = uploadPath ∧ next.body.length ≤ bodyLimit ∧
        ∃ cs, Utf8.encode cs = next.body) ∧
    ∀ next, next.method = "GET" → next.target.path = uploadPath →
      ((handle store next).1.status = 404 ↔ accepted history = []) ∧
      ∀ last, (accepted history).getLast? = some last → (handle store next).1.status = 200 ∧
        ∃ upload : Upload, KeptAs last upload ∧
          Upload.record.shape.decode (handle store next).1.body = .ok upload := by
  intro replies store history
  have kept : Kept history store := by
    have start : Kept [] [] := .nil
    exact start.run inquiries
  refine ⟨length_run [] inquiries, kept, fun next => handle_other, ?_, ?_⟩
  · intro next
    constructor
    · rintro ⟨post, path, status⟩
      exact ⟨post, path, (accepted_iff store post path).1 status⟩
    · rintro ⟨post, path, text⟩
      exact ⟨post, path, (accepted_iff store post path).2 text⟩
  · intro next get path
    rw [handle_get_upload store get path]
    unfold lastUpload
    -- What is kept and what was accepted are alike to the end.
    rcases List.eq_nil_or_concat' (accepted history) with none | ⟨others, last, ends⟩
    · have nothing : store = [] := by
        rw [Kept, none] at kept
        exact List.forall₂_nil_left_iff.1 kept
      rw [none, nothing]
      exact ⟨⟨fun _ => rfl, fun _ => rfl⟩, fun last h => by cases h⟩
    · rw [Kept, ends] at kept
      obtain ⟨before, rest, split, -, alike⟩ := forall₂_append_left_iff.1 kept
      obtain ⟨upload, keptAs, rfl⟩ : ∃ upload, KeptAs last upload ∧ rest = [upload] := by
        obtain ⟨upload, nothing, keptAs, none, same⟩ := List.forall₂_cons_left_iff.1 alike
        rw [List.forall₂_nil_left_iff.1 none] at same
        exact ⟨upload, keptAs, same⟩
      rw [split, ends, List.getLast?_concat, List.getLast?_concat]
      refine ⟨⟨fun status => ?_, fun none => by simp at none⟩, fun last' same => ?_⟩
      · exact absurd (show (200 : Nat) = 404 from status) (by decide)
      · obtain rfl := Option.some.inj same
        exact ⟨rfl, upload, keptAs, decode_document_upload upload⟩

/-- After one upload, it is what a GET reads. Of two types given for it the first one is told. -/
theorem handle_get_after_upload :
    let headers := [("Content-Type", "text/plain"), ("content-type", "text/html")]
    let post : Inquiry := ⟨"POST", ⟨uploadPath, none⟩, headers, [104, 105]⟩
    let get : Inquiry := ⟨"GET", ⟨uploadPath, none⟩, [], []⟩
    let reply := (handle (run [] [post]).2 get).1
    reply.status = 200 ∧ ∃ upload : Upload, KeptAs post upload ∧
      upload.headers.contentType = some "text/plain" ∧
      Upload.record.shape.decode reply.body = .ok upload := by
  intro headers post get reply
  have new : Accepted post (handle [] post).1 :=
    ⟨rfl, rfl, (accepted_iff [] rfl rfl).2 ⟨by decide, "hi".toList, by decide⟩⟩
  have last : (accepted ([post].zip (run [] [post]).1)).getLast? = some post := by
    simp [accepted, run, new]
  obtain ⟨found, upload, keptAs, read⟩ := ((run_keeps_accepted [post]).2.2.2.2 get rfl rfl).2 post last
  have first : FirstUnder "content-type" post.headers "text/plain" :=
    ⟨[], "Content-Type", _, rfl, by decide, by simp⟩
  have plain : "text/plain".toList.all Headers.isPlain = true := by decide
  refine ⟨found, upload, keptAs, (keptAs.contentType _).2 ⟨first, fun c hc => ?_⟩, read⟩
  exact Headers.isPlain_iff.1 (List.all_eq_true.1 plain c hc)

end Courier.Service
