import UiTemplate.Json.Raw

/-!
Getting a document by its path. Anything that gives a document or one of the
errors here can serve as a source.
-/

namespace UiTemplate

inductive FetchError where
  /-- There was no reply, or it broke off. -/
  | transport (method url reason : String)
  /-- The reply says that there is no document. -/
  | status (method url : String) (code : Nat)
  | notFound (path : String)
  /-- What was found is not a document. -/
  | malformed (origin reason : String)
  /-- The attempt itself came to grief. -/
  | crashed (reason : String)
deriving DecidableEq

def FetchError.message : FetchError → String
  | .transport method url reason =>
    "http transport error for " ++ method ++ " " ++ url ++ ": " ++ reason
  | .status method url code =>
    method ++ " " ++ url ++ " returned status " ++ String.ofList (Nat.toDigits 10 code)
  | .notFound path => "template not found: " ++ path
  | .malformed origin reason =>
    "malformed template document from " ++ origin ++ ": " ++ reason
  | .crashed reason => "fetch task failed: " ++ reason

abbrev Fetcher : Type := String → Except FetchError Json

def notJsonReason : String := "not a JSON document"

def documentFrom (origin text : String) : Except FetchError Json :=
  match Json.ofText? text with
  | none => .error (.malformed origin notJsonReason)
  | some json => .ok json

end UiTemplate
