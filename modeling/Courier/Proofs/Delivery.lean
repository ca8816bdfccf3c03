import Courier.Proofs.Client.Headers
import Courier.Proofs.Sending
import Courier.Proofs.Wire.Service

set_option autoImplicit false

/-! # From one client to the next

What a client sends to the path of uploads is kept by the service as it was, with the headers that the
client has put to it, and a fetch of that path gives it back: the payload goes as the body of a request,
as a text inside a document of the service, and as a text again, and each of these loses nothing. This is so over
every network that reaches the path; the service may have been asked other things in between.
-/

namespace Courier

open Json Service

section Upload

variable {σ : Type} {client : Client} {url : String} {network : Network σ} {kept : σ → Store} {state : σ}

/-! ## Sending -/

theorem seen_of_sendRequest {text : String} {credentials : Option Credentials} {path : List Char} {inquiry : Inquiry}
    (arrives : (client.sendRequest url text credentials).ArrivesAs path inquiry) :
    seen inquiry.headers = {
      authorization := credentials.map Credentials.header
      acceptCharset := none
      cacheControl := some "no-cache"
      contentType := some "text/plain; charset=UTF-8"
      contentLength := some (Decimal.text (Utf8.encode text.toList).length) } := by
  have dressed := client.dressed_send credentials url text
  have told {name value : String} (seen : name ∈ seenNames) (spelled : String)
      (mem : (spelled, value) ∈ (client.sendRequest url text credentials).headers)
      (same : Headers.sameName spelled name = true) : plainHeader? inquiry.headers name = some value := by
    refine arrives.plainHeader?_eq seen (Headers.get?_of_mem dressed.wellFormed.distinct mem same) fun v sent => ?_
    rw [← Option.some.inj sent]
    exact (dressed.plain_all _ mem).2
  have authorization : plainHeader? inquiry.headers "authorization" = credentials.map Credentials.header := by
    refine arrives.plainHeader?_eq (by decide) ?_ fun value sent => ?_
    · rw [← dressed.get?_authorization]
      exact Headers.get?_congr (by decide) _
    · obtain ⟨c, -, rfl⟩ := Option.map_eq_some_iff.1 sent
      exact c.header_plain
  have acceptCharset : plainHeader? inquiry.headers "accept-charset" = none := by
    refine arrives.plainHeader?_eq (by decide) ?_ (fun _ => nofun)
    rw [dressed.whole, Headers.get?_eq_head?_getAll, Headers.getAll_append,
      client.getAll_standingHeaders_other credentials (by decide), List.append_nil, Headers.getAll_cons,
      if_neg (by decide), Headers.getAll_cons, if_neg (by decide)]
    rfl
  have cacheControl : plainHeader? inquiry.headers "cache-control" = some "no-cache" :=
    told (by decide) "Cache-Control" (by simp [Client.sendRequest, Client.standingHeaders]) (by decide)
  have contentType : plainHeader? inquiry.headers "content-type" = some "text/plain; charset=UTF-8" :=
    told (by decide) "Content-Type" List.mem_cons_self (by decide)
  have contentLength : plainHeader? inquiry.headers "content-length" = some (Decimal.text (Utf8.size text.toList)) :=
    told (by decide) "Content-Length" (List.mem_cons_of_mem _ List.mem_cons_self) (by decide)
  unfold seen
  rw [authorization, acceptCharset, cacheControl, contentType, contentLength, Utf8.length_encode]

/-- A text that is sent with the status 201 is put to what the service keeps, and then every fetch is answered. -/
theorem accepted_of_sent (reaches : network.Reaches client url uploadPath kept) {text : String}
    {credentials : Option Credentials}
    (sent : ((Call.sendText url text credentials).run client network state).1.result = .ok 201) :
    (∃ upload : Upload, upload.body = text ∧
      upload.headers = {
        authorization := credentials.map Credentials.header
        acceptCharset := none
        cacheControl := some "no-cache"
        contentType := some "text/plain; charset=UTF-8"
        contentLength := some (Decimal.text (Utf8.encode text.toList).length) } ∧
      kept ((Call.sendText url text credentials).run client network state).2 = kept state ++ [upload]) ∧
    ∀ reader later, ∃ answer, (network (client.fetchRequest url reader) later).1 = .ok answer := by
  obtain ⟨answer, answered, status, -⟩ := (Call.sendText_eq_ok_iff client _ _ _ _ _ _).1 sent
  have builds : client.Builds url (client.sendRequest url text credentials) := .send text credentials
  obtain ⟨inquiry, arrives, returns, next⟩ := reaches.served builds answered
  have new : Accepted inquiry (handle (kept state) inquiry).1 :=
    ⟨arrives.method, arrives.path, returns.status.symm.trans status⟩
  obtain ⟨upload, headers, bytes, stored⟩ := handle_accepted new
  refine ⟨⟨upload, ?_, ?_, next.trans stored⟩, reaches.steady builds answered⟩
  · exact String.toList_inj.1 (Utf8.encode_injective (bytes.trans arrives.body))
  · rw [headers, seen_of_sendRequest arrives]

/-- A text within the limit that is answered is sent with the status 201. -/
theorem sendText_of_short (reaches : network.Reaches client url uploadPath kept) {text : String}
    {credentials : Option Credentials}
    (answered : ∃ answer, (network (client.sendRequest url text credentials) state).1 = .ok answer)
    (short : Utf8.size text.toList ≤ bodyLimit) :
    ((Call.sendText url text credentials).run client network state).1.result = .ok 201 := by
  obtain ⟨answer, answered⟩ := answered
  obtain ⟨inquiry, arrives, returns, -⟩ := reaches.served (.send text credentials) answered
  have whole : inquiry.body = Utf8.encode text.toList := arrives.body
  have fits : inquiry.body.length ≤ bodyLimit := by
    rw [whole, Utf8.length_encode]
    exact short
  rw [handle_upload (kept state) arrives.method arrives.path, upload_text fits whole.symm] at returns
  exact (Call.sendText_eq_ok_iff client _ _ _ _ _ _).2 ⟨answer, answered, returns.status, rfl⟩

/-! ## Fetching -/

theorem fetch_last (reaches : network.Reaches client url uploadPath kept) {credentials : Option Credentials}
    (answered : ∃ answer, (network (client.fetchRequest url credentials) state).1 = .ok answer) {store : Store}
    {upload : Upload} (last : kept state = store ++ [upload]) :
    ((Call.fetch Upload.record.shape url credentials).run client network state).1.result = .ok (some upload) := by
  obtain ⟨answer, answered⟩ := answered
  obtain ⟨inquiry, arrives, returns, -⟩ := reaches.served (.fetch credentials) answered
  have found : lastUpload (store ++ [upload]) = .document (Upload.record.shape.write upload) := by
    unfold lastUpload
    rw [List.getLast?_concat]
  rw [handle_get_upload (kept state) arrives.method arrives.path, last, found] at returns
  exact fetch_document answered returns (decode_document_upload upload)

end Upload

/-! ## Records on their way -/

/-- The shapes of what a repository server lists, with what is kept of their data. -/
inductive Listed : {α : Type} → Shape α → (α → α) → Prop where
  | repository : Listed .repository Repository.wholeSeconds
  | user : Listed .user id
  | catalog : Listed .catalog Catalog.wholeSeconds
  | users : Listed .users id

theorem Listed.roundTrips {α : Type} {shape : Shape α} {keep : α → α} (h : Listed shape keep) :
    shape.RoundTrips keep := by
  cases h with
  | repository => exact Shape.repository_faithful.roundTrips (by decide)
  | user => exact Shape.user_faithful.roundTrips (by decide)
  | catalog => exact Shape.catalog_faithful.roundTrips (by decide)
  | users => exact Shape.users_faithful.roundTrips (by decide)

/-- Over any network that reaches the path of uploads, what has been sent with the status 201 is what a fetch gives,
as long as the service has accepted no other upload in between, whatever else it has been asked: the payload to the
byte, the headers that the client has put to it, and in the payload the data, to the second. -/
theorem fetch_after_send {α σ : Type} {shape : Shape α} {keep : α → α} (listed : Listed shape keep)
    {client : Client} {url : String} {network : Network σ} {kept : σ → Store}
    (reaches : network.Reaches client url uploadPath kept) (state later : σ) (a : α)
    (credentials reader : Option Credentials) (between : List (Nat × Inquiry))
    (sent : ((Call.send Draft.text (.ofValue (shape.write a)) url credentials).run client network state).1.result
      = .ok 201)
    (quiet :
      let store := kept ((Call.send Draft.text (.ofValue (shape.write a)) url credentials).run client network state).2
      kept later = (receiveAll store between).2 ∧
        ∀ p ∈ between.zip (receiveAll store between).1, ¬Accepted p.1.2 p.2) :
    ∃ upload : Upload,
      ((Call.fetch Upload.record.shape url reader).run client network later).1.result = .ok (some upload) ∧
      upload.body = shape.encode a ∧
      upload.headers = {
        authorization := credentials.map Credentials.header
        acceptCharset := none
        cacheControl := some "no-cache"
        contentType := some "text/plain; charset=UTF-8"
        contentLength := some (Decimal.text (Utf8.encode upload.body.toList).length) } ∧
      shape.decode upload.body = .ok (keep a) := by
  -- Sending data is sending their payload as a text.
  have asText : (Call.send Draft.text (.ofValue (shape.write a)) url credentials).run client network state
      = (Call.sendText url (shape.encode a) credentials).run client network state := Call.run_send ..
  rw [asText] at sent quiet
  obtain ⟨same, others⟩ := quiet
  obtain ⟨⟨upload, body, headers, stored⟩, answered⟩ := accepted_of_sent reaches sent
  rw [receiveAll_other others, stored] at same
  refine ⟨upload, fetch_last reaches (answered reader later) same, body, ?_, ?_⟩
  · rw [headers, body]
  · rw [body]
    exact (listed.roundTrips a).2

/-- A user is sent to a site, the list of users is asked for, and then the user is fetched. -/
theorem fetch_after_send_user :
    let client : Client := ⟨{}, rfl⟩
    let site : Site := { authority := "localhost:8080", secure := false }
    let url := site.base ++ "/upload"
    let user : User := ⟨"ada", some "Ada \"Countess\"", true, ["docs.git"]⟩
    let credentials : Credentials := ⟨"ada", "engine", by decide, by decide⟩
    let asking : Inquiry := ⟨"GET", ⟨"/users".toList, none⟩, [], []⟩
    let kept := ((Call.send Draft.text (.ofValue (Shape.user.write user)) url (some credentials)).run client
      (network site client.settings.trust) []).2
    ∃ upload : Upload,
      ((Call.fetch Upload.record.shape url none).run client
        (network site client.settings.trust) (receiveAll kept [(0, asking)]).2).1.result
          = .ok (some upload) ∧
      Shape.user.decode upload.body = .ok user := by
  intro client site url user credentials asking kept
  have fixed : ("/upload", .upload) ∈ Route.fixed := by decide
  have reaches := network_reaches client site client.settings.trust fixed
  have sent : ((Call.send Draft.text (.ofValue (Shape.user.write user)) url (some credentials)).run client
      (network site client.settings.trust) []).1.result = .ok 201 := by
    rw [Call.run_send]
    have short : Utf8.size (Shape.user.encode user).toList ≤ bodyLimit := by decide +kernel
    have leaves := client.outgoing_sendRequest (some credentials) url (Shape.user.encode user)
    rw [if_pos (Nat.lt_of_le_of_lt short (by decide))] at leaves
    exact sendText_of_short reaches (network_answers fixed rfl (.send _ _) leaves _) short
  have quiet : ∀ p ∈ [(0, asking)].zip (receiveAll kept [(0, asking)]).1, ¬Accepted p.1.2 p.2 := by
    intro p hp new
    -- The one request in between is a GET.
    have post := new.1
    rw [List.mem_singleton.1 (List.of_mem_zip hp).1] at post
    exact absurd post (by decide)
  obtain ⟨upload, fetched, -, -, decoded⟩ :=
    fetch_after_send .user reaches [] _ user (some credentials) none [(0, asking)] sent ⟨rfl, quiet⟩
  exact ⟨upload, fetched, decoded⟩

end Courier
