import UiTemplate.Fetch.Directory
import UiTemplate.Json.Printer
import UiTemplate.Template.Reader

/-!
Serving the templates below a directory over HTTP. A document is read as a
template before it is sent, so a client never receives one that cannot be
shown; what is sent is the document, not the template.
-/

namespace UiTemplate.Serve

structure Response where
  status : Nat
  contentType : Option String
  body : String
deriving DecidableEq

def plainText (status : Nat) (body : String) : Response :=
  ⟨status, some "text/plain; charset=utf-8", body⟩

/-- The response for a path that is already decoded. -/
def respond (files : FileSystem) (root path : String) : Response :=
  if (Directory.relative? path).isNone then plainText 400 "invalid path"
  else
    match Directory.fetch files root path with
    | .ok document =>
      match Node.ofJson document with
      | .ok _ => ⟨200, some "application/json", document.text⟩
      | .error error => plainText 500 ("invalid template: " ++ error.message)
    | .error (.notFound _) => plainText 404 "not found"
    | .error error => plainText 500 error.message

/-- The bytes of a text with its percent escapes decoded. A percent sign that
does not start an escape stands for itself. -/
def percentDecode : List Char → List UInt8
  | '%' :: high :: low :: rest =>
    match Text.hexValue? high, Text.hexValue? low with
    | some h, some l => UInt8.ofNat (h * 16 + l) :: percentDecode rest
    | _, _ => '%'.toNat.toUInt8 :: percentDecode (high :: low :: rest)
  | c :: rest => (String.singleton c).toUTF8.toList ++ percentDecode rest
  | [] => []

def isSchemeChar (c : Char) : Bool :=
  c.isAlphanum || c == '+' || c == '-' || c == '.'

def beforeQuery (text : List Char) : List Char :=
  text.takeWhile fun c => c != '?' && c != '#'

/-- The path of a request target, after its leading slash and not yet decoded.
A target is a path or a URL; the path of a URL may be missing. Other targets,
such as the asterisk for the server as a whole, have none. -/
def targetPath? (target : String) : Option (List Char) :=
  match target.toList with
  | '/' :: rest => some (beforeQuery rest)
  | text =>
    match Text.cut? "://".toList text with
    | none => none
    | some (scheme, rest) =>
      if scheme.all isSchemeChar then
        let path := (beforeQuery rest).dropWhile (· != '/')
        some (path.drop 1)
      else none

def decodePath? (path : List Char) : Option String :=
  Text.Utf8.decode? ⟨(percentDecode path).toArray⟩

/-- The response to a request. A target without a path is nowhere. Documents are
only read: `HEAD` is answered like `GET` but without the body, and no other
method is allowed. -/
def route (files : FileSystem) (root method target : String) : Response :=
  match targetPath? target with
  | none => ⟨404, none, ""⟩
  | some path =>
    if method ≠ "GET" ∧ method ≠ "HEAD" then ⟨405, none, ""⟩
    else
      let response :=
        match decodePath? path with
        | none => plainText 400 "Invalid URL: Invalid UTF-8 in \x60path\x60"
        | some path => respond files root path
      if method = "HEAD" then { response with body := "" } else response

end UiTemplate.Serve
