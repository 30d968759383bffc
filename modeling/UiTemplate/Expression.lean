import UiTemplate.Context

/-!
Expressions are the strings of a template that refer to the context. A string
is taken apart once, without a context, into what it refers to; evaluating the
result puts values in. Values are never taken apart again, so data cannot refer
to anything, whatever it looks like.
-/

namespace UiTemplate

/-- A part of a text: characters that stay, or the path of a value to be
shown. -/
inductive TextPart where
  | literal (text : List Char)
  | placeholder (path : String)
deriving DecidableEq

inductive Argument where
  | property (path : String)
  | text (parts : List TextPart)
  | literal (text : String)
deriving DecidableEq

/-- A reference to a function of the host. Without arguments of its own the
function gets those of the event. -/
structure FunctionReference where
  path : String
  arguments : Option (List Argument)
deriving DecidableEq

inductive Expression where
  | property (path : String)
  | function (reference : FunctionReference)
  | text (parts : List TextPart)
deriving DecidableEq

def propertyMarker : List Char := "prop::".toList

def functionMarker : List Char := "function::".toList

def textMarker : List Char := "text::".toList

def placeholderOpen : List Char := "$\x7btext::".toList

def placeholderClose : List Char := ['\x7d']

namespace TextPart

/-- The first placeholder of a text: what stands before it, its path and what
follows. An opening without a closing brace anywhere after it is no
placeholder, and then there is none later either. -/
def first? (text : List Char) : Option (List Char × List Char × List Char) :=
  match Text.cut? placeholderOpen text with
  | none => none
  | some (before, body) =>
    match Text.cut? placeholderClose body with
    | none => none
    | some (path, rest) => some (before, path, rest)

theorem length_lt_of_first? {text before path rest : List Char}
    (h : first? text = some (before, path, rest)) : rest.length < text.length := by
  rw [first?] at h
  split at h
  · cases h
  · next body hopen =>
    split at h
    · cases h
    · next hclose =>
      cases h
      exact Nat.lt_trans (Text.length_lt_of_cut? (by decide) hclose)
        (Text.length_lt_of_cut? (by decide) hopen)

def parse (text : List Char) : List TextPart :=
  match _h : first? text with
  | none => [.literal text]
  | some (before, path, rest) =>
    .literal before :: .placeholder (String.ofList path) :: parse rest
termination_by text.length
decreasing_by exact length_lt_of_first? _h

def fill (context : Context) : TextPart → List Char
  | .literal text => text
  | .placeholder path => (context.shown path).toList

end TextPart

def interpolate (context : Context) (text : List Char) : List Char :=
  (TextPart.parse text).flatMap (TextPart.fill context)

namespace Argument

/-- One argument. The marker of a property may stand anywhere in it and is left
out of the path. -/
def parse (token : List Char) : Argument :=
  if Text.contains propertyMarker token then
    .property (String.ofList (Text.eraseFirst propertyMarker token))
  else if Text.contains textMarker token then .text (TextPart.parse token)
  else .literal (String.ofList token)

/-- The arguments between the parentheses. Blanks in front of an argument do
not count, except in front of the first. -/
def parseList (segment : List Char) : List Argument :=
  let list := Text.eraseFirst [')'] segment
  if list.all Text.isBlank then []
  else
    match Text.splitOn ',' list with
    | [] => []
    | first :: others => parse first :: others.map fun token => parse (Text.trimStart token)

def eval (context : Context) : Argument → Value
  | .property path => context.property path
  | .text parts => .string (String.ofList (parts.flatMap (TextPart.fill context)))
  | .literal token => .string token

end Argument

namespace FunctionReference

/-- A reference ends at its second opening parenthesis, if it has one. With
nothing after the first it has no arguments of its own. -/
def parse (reference : List Char) : FunctionReference :=
  match Text.cut? ['('] reference with
  | none => ⟨String.ofList reference, none⟩
  | some (path, rest) =>
    let segment :=
      match Text.cut? ['('] rest with
      | some (head, _) => head
      | none => rest
    ⟨String.ofList path, if segment.isEmpty then none else some (Argument.parseList segment)⟩

/-- The call that the reference stands for. If its path does not lead to a
function, the call does nothing. -/
def bind (context : Context) (reference : FunctionReference) : Invocation :=
  match (context.get? reference.path).bind Value.callable? with
  | none => .noop
  | some target =>
    match reference.arguments with
    | none => .forward target
    | some arguments => .bound target (arguments.map (Argument.eval context))

end FunctionReference

namespace Expression

/-- What a string of a template refers to. The marker must stand at its start;
everything else is a text. -/
def parse (raw : List Char) : Expression :=
  match Text.after? propertyMarker raw with
  | some path => .property (String.ofList path)
  | none =>
    match Text.after? functionMarker raw with
    | some reference => .function (FunctionReference.parse reference)
    | none => .text (TextPart.parse raw)

/-- The value of an expression. Properties keep their kind, texts are always
strings, and functions are not called yet. -/
def eval (context : Context) : Expression → Value
  | .property path => context.property path
  | .function reference => .invocation (reference.bind context)
  | .text parts => .string (String.ofList (parts.flatMap (TextPart.fill context)))

end Expression

def evaluate (context : Context) (raw : String) : Value :=
  (Expression.parse raw.toList).eval context

end UiTemplate
