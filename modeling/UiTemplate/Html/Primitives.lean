import UiTemplate.Html.Element
import UiTemplate.Json.Printer
import UiTemplate.Registry

/-!
The built-in types and the elements they become. Each prop gives at most one
attribute, whose name starts with `data-` unless the prop has a meaning in
markup of its own. Functions and calls leave the name of their target.
-/

namespace UiTemplate.Html

/-- The style entries whose numbers are not lengths. -/
def unitlessStyles : List String :=
  ["flex", "flexGrow", "flexShrink", "opacity", "zIndex", "fontWeight", "aspectRatio"]

/-- The text of a style entry. Numbers are lengths in pixels unless the entry
says otherwise; only strings and numbers can be written. -/
def styleText? (name : String) (value : Value) : Option String :=
  match value with
  | .number _ =>
    if unitlessStyles.contains name then value.text? else value.text?.map (· ++ "px")
  | .string _ => value.text?
  | _ => none

def declaration? (entry : String × Value) : Option (List Char) :=
  if isName entry.1 then
    (styleText? entry.1 entry.2).map fun text => (kebab entry.1 ++ ": " ++ text).toList
  else none

def declarations (style : List (String × Value)) : List (List Char) :=
  style.filterMap declaration?

/-- The attribute for a style, if anything is in it. -/
def styleAttribute? (style : List (String × Value)) : Option Attribute :=
  let css := String.ofList (Text.join "; ".toList (declarations style))
  if css.isEmpty then none else some ⟨"style", some css⟩

def textAttribute? (name : String) (value : Value) : Option Attribute :=
  value.text?.map fun text => ⟨name, some text⟩

/-- The attribute that tells what a function or a call would do. -/
def actionAttribute (name target : String) : Attribute :=
  ⟨"data-action-" ++ kebab name, some target⟩

/-- The attribute for a prop without a meaning of its own. -/
def dataAttribute? (name : String) (value : Value) : Option Attribute :=
  let dataName := "data-" ++ kebab name
  match value with
  | .invocation call =>
    some (actionAttribute name ((call.target?.map Callable.name).getD ""))
  | .function callable => some (actionAttribute name callable.name)
  | .bool true => some ⟨dataName, none⟩
  | .bool false => none
  | .array _ | .object _ => some ⟨dataName, some value.toJson.text⟩
  | _ => textAttribute? dataName value

/-- The attribute for a prop of an element with this tag. Props that cannot be
attribute names are dropped, and so are props that are null. -/
def propAttribute? (tag : String) (prop : String × Value) : Option Attribute :=
  let (name, value) := prop
  if !isName name || value.isNull then none
  else if name = "key" then textAttribute? "data-key" value
  else if name = "alt" ∨ name = "title" ∨ name = "id" then textAttribute? name value
  else if name = "accessibilityLabel" then textAttribute? "aria-label" value
  else
    match value with
    | .object members =>
      if name = "style" then styleAttribute? members
      else if name = "source" ∧ tag = "img" then
        (Fields.get? "uri" members).bind (textAttribute? "src")
      else dataAttribute? name value
    | _ => dataAttribute? name value

def element (tag : String) : Constructor Element := fun props content =>
  let attributes := props.filterMap (propAttribute? tag)
  match content with
  | .empty => { tag, attributes }
  | .leaf value => { tag, attributes, text := value.text? }
  | .elements children => { tag, attributes, children }

/-- A button, which never submits a form. -/
def button : Constructor Element := fun props content =>
  let built := element "button" props content
  { built with attributes := ⟨"type", some "button"⟩ :: built.attributes }

def primitives : Registry Element :=
  ((((Registry.empty.register "View" (element "div")).register "Text" (element "span")).register
    "Image" (element "img")).register "Button" button)

end UiTemplate.Html
