import UiTemplate.Html.Name

/-!
Elements and their markup. Texts and attribute values are escaped, and an
attribute whose name is not a name is left out; tags are written as they are,
because they come from the program and not from data.
-/

namespace UiTemplate.Html

structure Attribute where
  name : String
  /-- An attribute without a value is written as its name alone. -/
  value : Option String
deriving DecidableEq

structure Element where
  tag : String
  attributes : List Attribute := []
  text : Option String := none
  children : List Element := []
deriving Inhabited

/-- The elements that have nothing between tags: no text, no children and no
closing tag. -/
def voidTags : List String := ["img", "br", "hr", "input"]

/-- A text with the characters replaced that have a meaning in markup. The
ampersand comes first, so that those of the replacements stay. -/
def escapeChars (text : List Char) : List Char :=
  let text := Text.replace '&' "&amp;".toList text
  let text := Text.replace '<' "&lt;".toList text
  let text := Text.replace '>' "&gt;".toList text
  let text := Text.replace '"' "&quot;".toList text
  Text.replace '\'' "&#39;".toList text

def escape (text : String) : String :=
  String.ofList (escapeChars text.toList)

def Attribute.chars (attr : Attribute) : List Char :=
  if isName attr.name then
    let value :=
      match attr.value with
      | none => []
      | some value => '=' :: '"' :: (escapeChars value.toList ++ ['"'])
    ' ' :: (attr.name.toList ++ value)
  else []

namespace Element

def openTag (tag : String) (attributes : List Attribute) : List Char :=
  '<' :: (tag.toList ++ attributes.flatMap Attribute.chars ++ ['>'])

def closeTag (tag : String) : List Char :=
  '<' :: '/' :: (tag.toList ++ ['>'])

def textChars (text : Option String) : List Char :=
  match text with
  | none => []
  | some text => escapeChars text.toList

mutual

def chars : Element → List Char
  | ⟨tag, attributes, text, children⟩ =>
    openTag tag attributes ++
      if voidTags.contains tag then []
      else textChars text ++ charsAll children ++ closeTag tag

def charsAll : List Element → List Char
  | [] => []
  | element :: elements => element.chars ++ charsAll elements

end

def render (element : Element) : String :=
  String.ofList element.chars

end Element

end UiTemplate.Html
