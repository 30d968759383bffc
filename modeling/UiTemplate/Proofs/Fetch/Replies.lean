import UiTemplate.Fetch.Http

/-!
What becomes of a reply. A status of 400 or more is an error whatever the body
is, and with any other status the body has to be a document. For the replies that
say clearly whether there is a document, a success or a status of 400 or more,
this is what one expects. It also makes documents of the bodies that come with
other replies, such as a redirection that leads nowhere; that is shown at the end
for one of them.
-/

namespace UiTemplate

theorem documentFrom_eq_ok_iff {origin text : String} {json : Json} :
    documentFrom origin text = .ok json ↔ Json.ofText? text = some json := by
  rw [documentFrom]
  cases Json.ofText? text with
  | none => simp
  | some found => simp

theorem documentFrom_of_ofText?_eq_none {text : String} (origin : String)
    (h : Json.ofText? text = none) :
    documentFrom origin text = .error (.malformed origin notJsonReason) := by
  simp only [documentFrom, h]

namespace Http

/-- The status of a reply that brings what was asked for. -/
def IsSuccess (status : Nat) : Prop :=
  200 ≤ status ∧ status ≤ 299

/-- The body of a reply has come whole and is a document. -/
def Reply.Holds (reply : Reply) (json : Json) : Prop :=
  ∃ body, reply.body = .ok body ∧ Json.ofText? (Text.Utf8.decodeLossy body) = some json

variable {method url path : String} {reply : Reply} {body : List UInt8} {json : Json}
  {settings : FetchSettings} {network : Network}

/-- A reply from 400 on is an error, whatever its body is. -/
theorem document_of_refused (h : 400 ≤ reply.status) :
    document method url reply = .error (.status method url reply.status) := by
  rw [document, if_pos h]

/-- Below 400 the status is not looked at, and the body is read as the document. -/
theorem document_of_body (h : reply.status < 400) (hbody : reply.body = .ok body) :
    document method url reply = documentFrom url (Text.Utf8.decodeLossy body) := by
  rw [document, if_neg (Nat.not_le.2 h), hbody]

/-- A document comes from its body alone, once the status is below 400. -/
theorem document_eq_ok_iff :
    document method url reply = .ok json ↔ reply.status < 400 ∧ reply.Holds json := by
  constructor
  · intro h
    rw [document] at h
    split at h
    · cases h
    · next hstatus =>
      split at h
      · cases h
      · next body hbody =>
        exact ⟨Nat.lt_of_not_le hstatus, body, hbody, documentFrom_eq_ok_iff.1 h⟩
  · rintro ⟨hstatus, body, hbody, hjson⟩
    rw [document_of_body hstatus hbody]
    exact documentFrom_eq_ok_iff.2 hjson

theorem fetch_of_reply (h : network (request settings path) = .ok reply) :
    fetch settings network path =
      document settings.method.name (settings.urlFor path) reply := by
  simp only [fetch, h]
  rfl

/-- A fetch gives the document in the body of the reply unless the status is 400
or more; then the status is the error. Other bodies are malformed. If the status
says either that there is a document or that there is none, a fetch gives one
exactly if the reply is a success, and the error of any other reply is its
status. -/
theorem fetch_by_status (h : network (request settings path) = .ok reply) :
    (∀ json, fetch settings network path = .ok json ↔
      reply.status < 400 ∧ reply.Holds json) ∧
    (400 ≤ reply.status → fetch settings network path =
      .error (.status settings.method.name (settings.urlFor path) reply.status)) ∧
    (∀ body, reply.status < 400 → reply.body = .ok body →
      Json.ofText? (Text.Utf8.decodeLossy body) = none →
      fetch settings network path = .error (.malformed (settings.urlFor path) notJsonReason)) ∧
    (IsSuccess reply.status ∨ 400 ≤ reply.status →
      (∀ json, fetch settings network path = .ok json ↔
        IsSuccess reply.status ∧ reply.Holds json) ∧
      (¬ IsSuccess reply.status → fetch settings network path =
        .error (.status settings.method.name (settings.urlFor path) reply.status))) := by
  rw [fetch_of_reply h]
  refine ⟨fun json => document_eq_ok_iff, document_of_refused, ?_, ?_⟩
  · intro body hstatus hbody hjson
    rw [document_of_body hstatus hbody, documentFrom_of_ofText?_eq_none _ hjson]
  · intro hclear
    constructor
    · intro json
      have hsuccess : reply.status < 400 ↔ IsSuccess reply.status := by
        unfold IsSuccess at hclear ⊢
        omega
      rw [document_eq_ok_iff, hsuccess]
    · intro hfailure
      exact document_of_refused (hclear.resolve_left hfailure)

def always (reply : Reply) : Network := fun _ => .ok reply

/-- An empty object, which is a document but not a template. -/
def emptyObject : List UInt8 := [0x7b, 0x7d]

theorem holds_emptyObject (status : Nat) : (Reply.mk status (.ok emptyObject)).Holds (.object []) :=
  ⟨emptyObject, rfl, rfl⟩

/-- The same body is a document under 201 and an error under 503. -/
theorem fetch_by_status_created :
    always ⟨201, .ok emptyObject⟩ (request {} "page") = .ok ⟨201, .ok emptyObject⟩ ∧
      IsSuccess 201 ∧ fetch {} (always ⟨201, .ok emptyObject⟩) "page" = .ok (.object []) ∧
      always ⟨503, .ok emptyObject⟩ (request {} "page") = .ok ⟨503, .ok emptyObject⟩ ∧
      ¬ IsSuccess 503 ∧
      fetch {} (always ⟨503, .ok emptyObject⟩) "page" = .error (.status "GET" "/page" 503) := by
  have hcreated : always ⟨201, .ok emptyObject⟩ (request {} "page") =
      .ok ⟨201, .ok emptyObject⟩ := rfl
  have hbusy : always ⟨503, .ok emptyObject⟩ (request {} "page") = .ok ⟨503, .ok emptyObject⟩ := rfl
  have hsuccess : IsSuccess 201 := by simp [IsSuccess]
  have hfailure : ¬ IsSuccess 503 := by simp [IsSuccess]
  obtain ⟨_, _, _, hclear⟩ := fetch_by_status hcreated
  obtain ⟨_, _, _, hrefused⟩ := fetch_by_status hbusy
  refine ⟨hcreated, hsuccess, ?_, hbusy, hfailure, ?_⟩
  · exact ((hclear (.inl hsuccess)).1 _).2 ⟨hsuccess, holds_emptyObject 201⟩
  · exact (hrefused (.inr (by simp))).2 hfailure

/-- A reply that offers several places and no document is taken for a document,
though it is no success. -/
theorem fetch_takes_redirection_for_document :
    ¬ IsSuccess 300 ∧
      fetch {} (always ⟨300, .ok emptyObject⟩) "page" = .ok (.object []) := by
  refine ⟨by simp [IsSuccess], ?_⟩
  rw [fetch_of_reply rfl]
  exact document_eq_ok_iff.2 ⟨by simp, holds_emptyObject 300⟩

end Http

end UiTemplate
