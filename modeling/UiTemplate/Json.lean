import UiTemplate.Fields
import UiTemplate.Number

/-!
JSON documents as data. Objects keep their members in the order of the names,
each name once; the constructors do not enforce this, but everything in the
library that builds an object goes through `Fields.insert`.
-/

namespace UiTemplate

inductive Json where
  | null
  | bool (b : Bool)
  | number (n : Number)
  | string (s : String)
  | array (items : List Json)
  | object (members : List (String × Json))
deriving Inhabited

namespace Json

mutual

/-- Equality of documents: equal shapes with the same numbers at the leaves. -/
def same : Json → Json → Bool
  | .null, .null => true
  | .bool a, .bool b => a == b
  | .number a, .number b => a.same b
  | .string a, .string b => a == b
  | .array xs, .array ys => sameItems xs ys
  | .object xs, .object ys => sameMembers xs ys
  | _, _ => false

def sameItems : List Json → List Json → Bool
  | [], [] => true
  | x :: xs, y :: ys => x.same y && sameItems xs ys
  | _, _ => false

def sameMembers : List (String × Json) → List (String × Json) → Bool
  | [], [] => true
  | (j, x) :: xs, (k, y) :: ys => j == k && x.same y && sameMembers xs ys
  | _, _ => false

end

mutual

/-- The document with the members of every object in order. Of members with
the same name the last one counts. -/
def inOrder : Json → Json
  | .array items => .array (inOrderItems items)
  | .object members => .object (Fields.ofList (inOrderMembers members))
  | leaf => leaf

def inOrderItems : List Json → List Json
  | [] => []
  | item :: items => item.inOrder :: inOrderItems items

def inOrderMembers : List (String × Json) → List (String × Json)
  | [] => []
  | (name, value) :: members => (name, value.inOrder) :: inOrderMembers members

end

def member? (name : String) : Json → Option Json
  | .object members => Fields.get? name members
  | _ => none

def ofNat (n : Nat) : Json :=
  (Whole.ofInt? n).elim .null fun whole => .number (.whole whole)

end Json

end UiTemplate
