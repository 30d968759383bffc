import UiTemplate.Json.Record

/-!
The options of a build and how they are written in JSON: as an object, or as an
array of the fields' values in their order. Missing fields take their defaults,
each on its own.
-/

namespace UiTemplate

/-- How a node without a key of its own gets one. -/
inductive KeyStrategy where
  /-- From its position, so that the same template always gets the same keys. -/
  | treePath
  | random
  | none
deriving DecidableEq

structure BuildOptions where
  /-- The prop that holds the key. -/
  keyProp : String := "key"
  keys : KeyStrategy := .treePath
  /-- The type that is built where there is no template. -/
  placeholderType : String := "View"
deriving DecidableEq

namespace KeyStrategy

def name : KeyStrategy → String
  | .treePath => "tree_path"
  | .random => "random"
  | .none => "none"

def ofName? (name : String) : Option KeyStrategy :=
  if name = "tree_path" then some .treePath
  else if name = "random" then some .random
  else if name = "none" then some .none
  else Option.none

end KeyStrategy

namespace BuildOptions

/-- The fields in the order of the array form. -/
def fieldNames : List String := ["keyProp", "keys", "placeholderType"]

def ofFields? (fields : Fields Json) : Option BuildOptions := do
  let defaults : BuildOptions := {}
  let keyProp ← Json.Record.field? "keyProp" Json.Record.string? defaults.keyProp fields
  let keys ← Json.Record.field? "keys"
    (fun value => (Json.Record.choice? value).bind KeyStrategy.ofName?) defaults.keys fields
  let placeholderType ←
    Json.Record.field? "placeholderType" Json.Record.string? defaults.placeholderType fields
  some { keyProp, keys, placeholderType }

def ofJson? (json : Json) : Option BuildOptions :=
  (Json.Record.ofJson? fieldNames json).bind ofFields?

def ofText? (text : String) : Option BuildOptions :=
  (Json.Record.ofText? fieldNames text).bind ofFields?

def toJson (options : BuildOptions) : Json :=
  .object [("keyProp", .string options.keyProp), ("keys", .string options.keys.name),
    ("placeholderType", .string options.placeholderType)]

end BuildOptions

end UiTemplate
