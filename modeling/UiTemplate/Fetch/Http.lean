import UiTemplate.Fetch
import UiTemplate.Fetch.Settings
import UiTemplate.Text.Utf8

/-!
Documents over HTTP. What happens on the way, redirections included, is the
business of the network, which answers a request with the final reply or not at
all.
-/

namespace UiTemplate.Http

structure Request where
  method : HttpMethod
  url : String
  headers : List (String × String)
deriving DecidableEq

structure Reply where
  status : Nat
  /-- The body, or why it could not be received whole. -/
  body : Except String (List UInt8)

/-- A network answers every request, with a reply or with the reason why there
is none. -/
abbrev Network : Type := Request → Except String Reply

def request (settings : FetchSettings) (path : String) : Request :=
  ⟨settings.method, settings.urlFor path, settings.headers⟩

/-- The document in a reply. A status of 400 or more says that there is none;
with any other status the body is taken for it. -/
def document (method url : String) (reply : Reply) : Except FetchError Json :=
  if 400 ≤ reply.status then .error (.status method url reply.status)
  else
    match reply.body with
    | .error reason => .error (.transport method url reason)
    | .ok body => documentFrom url (Text.Utf8.decodeLossy body)

def fetch (settings : FetchSettings) (network : Network) : Fetcher := fun path =>
  let request := request settings path
  match network request with
  | .error reason => .error (.transport request.method.name request.url reason)
  | .ok reply => document request.method.name request.url reply

end UiTemplate.Http
