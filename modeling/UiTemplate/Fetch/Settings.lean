import UiTemplate.Json.Record

/-!
Where and how documents are fetched over HTTP, and how these settings are
written in JSON: as an object, or as an array of the fields' values in their
order. Missing fields take their defaults, each on its own.
-/

namespace UiTemplate

inductive HttpMethod where
  | get
  | put
  | post
deriving DecidableEq

namespace HttpMethod

def name : HttpMethod → String
  | .get => "GET"
  | .put => "PUT"
  | .post => "POST"

def ofName? (name : String) : Option HttpMethod :=
  if name = "GET" then some .get
  else if name = "PUT" then some .put
  else if name = "POST" then some .post
  else none

end HttpMethod

structure FetchSettings where
  method : HttpMethod := .get
  baseUrl : String := ""
  headers : List (String × String) := []
  /-- How long to wait, in milliseconds. -/
  timeoutMs : UInt64 := 5000
deriving DecidableEq

/-- An endpoint below a base. A slash is put between them unless the base ends
in one, and one slash at the start of the endpoint does not count. Without an
endpoint the base stays as it is. -/
def joinUrl (base endpoint : String) : String :=
  if endpoint.isEmpty then base
  else
    let base := base.toList
    let front := if base.getLast? = some '/' then base else base ++ ['/']
    let back :=
      match endpoint.toList with
      | '/' :: rest => rest
      | text => text
    String.ofList (front ++ back)

namespace FetchSettings

def urlFor (settings : FetchSettings) (endpoint : String) : String :=
  joinUrl settings.baseUrl endpoint

def withHeader (settings : FetchSettings) (name value : String) : FetchSettings :=
  { settings with headers := Fields.insert name value settings.headers }

/-- The fields in the order of the array form. -/
def fieldNames : List String := ["method", "baseUrl", "headers", "timeoutMs"]

def timeout? (json : Json) : Option UInt64 :=
  (Json.Record.nat? json).bind fun n => if n < UInt64.size then some (.ofNat n) else none

def ofFields? (fields : Fields Json) : Option FetchSettings := do
  let defaults : FetchSettings := {}
  let method ← Json.Record.field? "method"
    (fun value => (Json.Record.choice? value).bind HttpMethod.ofName?) defaults.method fields
  let baseUrl ← Json.Record.field? "baseUrl" Json.Record.string? defaults.baseUrl fields
  let headers ← Json.Record.field? "headers" Json.Record.strings? defaults.headers fields
  let timeoutMs ← Json.Record.field? "timeoutMs" timeout? defaults.timeoutMs fields
  some { method, baseUrl, headers, timeoutMs }

def ofJson? (json : Json) : Option FetchSettings :=
  (Json.Record.ofJson? fieldNames json).bind ofFields?

def ofText? (text : String) : Option FetchSettings :=
  (Json.Record.ofText? fieldNames text).bind ofFields?

def toJson (settings : FetchSettings) : Json :=
  .object [("baseUrl", .string settings.baseUrl),
    ("headers", .object (settings.headers.map fun (name, value) => (name, .string value))),
    ("method", .string settings.method.name),
    ("timeoutMs", Json.ofNat settings.timeoutMs.toNat)]

end FetchSettings

end UiTemplate
