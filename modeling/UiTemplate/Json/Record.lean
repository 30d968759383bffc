import UiTemplate.Json.Raw

/-!
Records in JSON: a fixed list of fields, given by name in an object or by
position in an array. Every field may be missing. Members with other names are
skipped unread, so in a text they only have to be grammatical; a field that is
given twice makes the text ambiguous and is refused.
-/

namespace UiTemplate.Json.Record

/-- The fields of a record that is given by position. There may be fewer items
than fields, but not more. -/
def ofItems? (names : List String) (items : List Json) : Option (Fields Json) :=
  if items.length ≤ names.length then some (names.zip items) else none

/-- The fields of a record, if the document has the shape of one. -/
def ofJson? (names : List String) : Json → Option (Fields Json)
  | .object members => some (members.filter fun member => names.contains member.1)
  | .array items => ofItems? names items
  | _ => none

/-- The fields among the members of a text. -/
def ofMembers? (names : List String) :
    List (List Piece × Raw) → Option (List (String × Json))
  | [] => some []
  | (pieces, value) :: members => do
    let name := String.ofList (← Piece.decode? pieces)
    if names.contains name then
      let value ← value.asWritten?
      let rest ← ofMembers? names members
      if Fields.contains name rest then none
      some ((name, value) :: rest)
    else ofMembers? names members

def ofText? (names : List String) (text : String) : Option (Fields Json) := do
  match ← Raw.ofChars? text.toList with
  | .object members => ofMembers? names members
  | .array items => ofItems? names (← Raw.itemsAsWritten? items)
  | _ => none

def field? {α : Type} (name : String) (decode : Json → Option α) (default : α)
    (fields : Fields Json) : Option α :=
  match Fields.get? name fields with
  | none => some default
  | some value => decode value

def string? : Json → Option String
  | .string s => some s
  | _ => none

def nat? : Json → Option Nat
  | .number (.whole n) => if 0 ≤ n.value then some n.value.toNat else none
  | _ => none

/-- One of a choice of names: the name, or an object with that name as its only
member and nothing in it. -/
def choice? : Json → Option String
  | .string name => some name
  | .object [(name, .null)] => some name
  | _ => none

/-- Strings by name. Of two with the same name the last one counts. -/
def strings? : Json → Option (Fields String)
  | .object members =>
    let named (member : String × Json) : Option (String × String) :=
      (string? member.2).map fun s => (member.1, s)
    (members.mapM named).map Fields.ofList
  | _ => none

end UiTemplate.Json.Record
