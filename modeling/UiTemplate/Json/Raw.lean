import UiTemplate.Json
import UiTemplate.Json.Token

/-!
JSON texts as written: members in the order of the text, repeated names kept,
strings and numbers not yet given a meaning. A text is grammatical or not at
this level; whether its numbers are in range, its strings are texts and its
nesting is acceptable is asked when a document is made of it. A reader that
skips members of no interest skips these questions for them, too.
-/

namespace UiTemplate.Json

inductive Raw where
  | null
  | bool (b : Bool)
  | number (literal : Literal)
  | string (pieces : List Piece)
  | array (items : List Raw)
  | object (members : List (List Piece × Raw))

namespace Raw

/-- A container that is not closed yet, its parts in reverse. -/
inductive Frame where
  | array (items : List Raw)
  | object (members : List (List Piece × Raw))
  /-- An object after one of its names. -/
  | member (members : List (List Piece × Raw)) (name : List Piece)

/-- What may come next. -/
inductive Expect where
  | value
  | valueOrClose
  | name
  | nameOrClose
  | colon
  | commaOrClose
  | nothing
deriving DecidableEq

/-- The open containers, innermost first, and the document once it is
complete. -/
structure Reader where
  frames : List Frame
  expect : Expect
  done : Option Raw

namespace Reader

def start : Reader := ⟨[], .value, none⟩

/-- A complete value where one may stand: it is the document, or it goes into
the innermost open container. -/
def put? (r : Reader) (value : Raw) : Option Reader :=
  if r.expect ≠ .value ∧ r.expect ≠ .valueOrClose then none else
  match r.frames with
  | [] => some ⟨[], .nothing, some value⟩
  | .array items :: outer => some ⟨.array (value :: items) :: outer, .commaOrClose, none⟩
  | .member members name :: outer =>
    some ⟨.object ((name, value) :: members) :: outer, .commaOrClose, none⟩
  | .object _ :: _ => none

/-- A string is a name where a name may stand, and a value elsewhere. -/
def putString? (r : Reader) (pieces : List Piece) : Option Reader :=
  match r.expect, r.frames with
  | .name, .object members :: outer | .nameOrClose, .object members :: outer =>
    some ⟨.member members pieces :: outer, .colon, none⟩
  | _, _ => r.put? (.string pieces)

/-- A container opens where a value may stand. -/
def open? (r : Reader) (frame : Frame) (expect : Expect) : Option Reader :=
  if r.expect = .value ∨ r.expect = .valueOrClose then some ⟨frame :: r.frames, expect, none⟩
  else none

/-- The innermost container is complete and becomes a value. -/
def closeWith? (outer : List Frame) (value : Raw) : Option Reader :=
  put? ⟨outer, .value, none⟩ value

def step (r : Reader) (token : Token) : Option Reader :=
  match token with
  | .null => r.put? .null
  | .bool b => r.put? (.bool b)
  | .number literal => r.put? (.number literal)
  | .string pieces => r.putString? pieces
  | .openArray => r.open? (.array []) .valueOrClose
  | .openObject => r.open? (.object []) .nameOrClose
  | .closeArray =>
    match r.frames, r.expect with
    | .array items :: outer, .valueOrClose | .array items :: outer, .commaOrClose =>
      closeWith? outer (.array items.reverse)
    | _, _ => none
  | .closeObject =>
    match r.frames, r.expect with
    | .object members :: outer, .nameOrClose | .object members :: outer, .commaOrClose =>
      closeWith? outer (.object members.reverse)
    | _, _ => none
  | .comma =>
    match r.frames, r.expect with
    | .array _ :: _, .commaOrClose => some { r with expect := .value }
    | .object _ :: _, .commaOrClose => some { r with expect := .name }
    | _, _ => none
  | .colon => if r.expect = .colon then some { r with expect := .value } else none

end Reader

/-- The value written by a text, if the text is grammatical: one value with
nothing but blanks around it. -/
def ofChars? (text : List Char) : Option Raw := do
  let tokens ← Token.scan? text
  let last ← tokens.foldlM Reader.step Reader.start
  last.done

mutual

/-- How many containers are nested in each other at the deepest place. -/
def depth : Raw → Nat
  | .array items => depthItems items + 1
  | .object members => depthMembers members + 1
  | _ => 0

def depthItems : List Raw → Nat
  | [] => 0
  | item :: items => max item.depth (depthItems items)

def depthMembers : List (List Piece × Raw) → Nat
  | [] => 0
  | (_, value) :: members => max value.depth (depthMembers members)

end

mutual

/-- The document that is written, if all of it has a meaning, with the members
as they are in the text: in that order and with repeated names. -/
def asWritten? : Raw → Option Json
  | .null => some .null
  | .bool b => some (.bool b)
  | .number literal => (Number.ofLiteral? literal).map .number
  | .string pieces => (Piece.decode? pieces).map fun text => .string (String.ofList text)
  | .array items => (itemsAsWritten? items).map .array
  | .object members => (membersAsWritten? members).map .object

def itemsAsWritten? : List Raw → Option (List Json)
  | [] => some []
  | item :: items => do
    let first ← item.asWritten?
    let rest ← itemsAsWritten? items
    some (first :: rest)

def membersAsWritten? : List (List Piece × Raw) → Option (List (String × Json))
  | [] => some []
  | (name, value) :: members => do
    let name ← Piece.decode? name
    let value ← value.asWritten?
    let rest ← membersAsWritten? members
    some ((String.ofList name, value) :: rest)

end

def toJson? (raw : Raw) : Option Json :=
  raw.asWritten?.map Json.inOrder

/-- The deepest nesting of containers that a document may have. -/
def depthLimit : Nat := 127

end Raw

def ofText? (text : String) : Option Json := do
  let raw ← Raw.ofChars? text.toList
  if raw.depth ≤ Raw.depthLimit then raw.toJson? else none

end UiTemplate.Json
