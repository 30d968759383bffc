import UiTemplate.Text

/-!
The names of attributes. Only names of letters, digits, hyphens and underscores
are ever written, so a name cannot end a tag or start another attribute. Names
of props are written in lower case with a hyphen between their words.
-/

namespace UiTemplate.Html

/-- The characters of names, all of them ASCII. -/
def isNameChar (c : Char) : Bool :=
  c.isAlphanum || c == '_' || c == '-'

def isName (name : String) : Bool :=
  !name.toList.isEmpty && name.toList.all isNameChar

/-- Whether a capital starts a new word: after a small letter or a digit, and
after another capital if a small letter follows. A run of capitals is one word. -/
def startsWord (previous next : Option Char) : Bool :=
  match previous with
  | none => false
  | some p =>
    if p.isLower || p.isDigit then true
    else if p.isUpper then next.any Char.isLower
    else false

/-- The rest of a name after the character `previous`, in lower case with a
hyphen in front of every word that a capital starts. -/
def kebabAfter (previous : Option Char) : List Char → List Char
  | [] => []
  | c :: rest =>
    let hyphen := if c.isUpper && startsWord previous rest.head? then ['-'] else []
    hyphen ++ c.toLower :: kebabAfter (some c) rest

/-- A name in lower case with hyphens between its words. -/
def kebab (name : String) : String :=
  String.ofList (kebabAfter none name.toList)

end UiTemplate.Html
