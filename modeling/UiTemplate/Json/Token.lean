import UiTemplate.Number.Literal

/-!
The tokens of JSON texts. The scanner reads one character at a time and keeps
the token it is inside of, so scanning is a fold over the text. A string token
keeps the difference between a character and a `\u` escape, because two escapes
may stand for one character and some stand for none at all: what a string means
is decided later, and only where somebody wants to know.
-/

namespace UiTemplate.Json

/-- A piece of a string as it is written. -/
inductive Piece where
  | char (c : Char)
  /-- The number of a `\u` escape. -/
  | unit (n : Nat)
deriving DecidableEq

inductive Token where
  | openArray
  | closeArray
  | openObject
  | closeObject
  | comma
  | colon
  | null
  | bool (b : Bool)
  | number (literal : Literal)
  | string (pieces : List Piece)
deriving DecidableEq

/-- How far the scanner is inside a string's escape. -/
inductive Escape where
  | outside
  /-- After the backslash. -/
  | start
  /-- After `\u` and this many hexadecimal digits with this value. -/
  | unit (digits value : Nat)
deriving DecidableEq

/-- The token the scanner is inside of, its characters in reverse. -/
inductive Partial where
  | none
  | word (reversed : List Char)
  | number (reversed : List Char)
  | string (reversed : List Piece) (escape : Escape)

/-- The tokens read so far, in reverse, and the one that is not complete. -/
structure Scanner where
  reversed : List Token
  current : Partial

namespace Scanner

def start : Scanner := ⟨[], .none⟩

def isWordChar (c : Char) : Bool :=
  c.isLower

def isNumberChar (c : Char) : Bool :=
  c.isDigit || c == '+' || c == '-' || c == '.' || c == 'e' || c == 'E'

def wordToken? : List Char → Option Token
  | ['n', 'u', 'l', 'l'] => some .null
  | ['t', 'r', 'u', 'e'] => some (.bool true)
  | ['f', 'a', 'l', 's', 'e'] => some (.bool false)
  | _ => none

/-- Ends a word or a number. Strings end with their closing quote only. -/
def close? (s : Scanner) : Option Scanner :=
  match s.current with
  | .none => some s
  | .word cs => (wordToken? cs.reverse).map fun t => ⟨t :: s.reversed, .none⟩
  | .number cs =>
    (Literal.ofChars? cs.reverse).map fun literal => ⟨.number literal :: s.reversed, .none⟩
  | .string _ _ => none

def punctuation? (c : Char) : Option Token :=
  if c = '[' then some .openArray
  else if c = ']' then some .closeArray
  else if c = '\x7b' then some .openObject
  else if c = '\x7d' then some .closeObject
  else if c = ',' then some .comma
  else if c = ':' then some .colon
  else none

def isSpace (c : Char) : Bool :=
  c == ' ' || c == '\t' || c == '\n' || c == '\r'

/-- A character outside of every token. -/
def between? (s : Scanner) (c : Char) : Option Scanner :=
  if isSpace c then some s
  else if c = '"' then some { s with current := .string [] .outside }
  else if c = '-' ∨ c.isDigit then some { s with current := .number [c] }
  else if isWordChar c then some { s with current := .word [c] }
  else (punctuation? c).map fun t => { s with reversed := t :: s.reversed }

def escaped? (c : Char) : Option Char :=
  if c = '"' ∨ c = '\\' ∨ c = '/' then some c
  else if c = 'b' then some '\x08'
  else if c = 'f' then some '\x0c'
  else if c = 'n' then some '\n'
  else if c = 'r' then some '\r'
  else if c = 't' then some '\t'
  else none

/-- A character inside a string. Control characters must be escaped. -/
def inString? (s : Scanner) (pieces : List Piece) (c : Char) : Escape → Option Scanner
  | .outside =>
    if c = '"' then some ⟨.string pieces.reverse :: s.reversed, .none⟩
    else if c = '\\' then some { s with current := .string pieces .start }
    else if c.val < 0x20 then none
    else some { s with current := .string (.char c :: pieces) .outside }
  | .start =>
    if c = 'u' then some { s with current := .string pieces (.unit 0 0) }
    else (escaped? c).map fun d => { s with current := .string (.char d :: pieces) .outside }
  | .unit digits value =>
    (Text.hexValue? c).map fun d =>
      if digits = 3 then
        { s with current := .string (.unit (value * 16 + d) :: pieces) .outside }
      else { s with current := .string pieces (.unit (digits + 1) (value * 16 + d)) }

def step (s : Scanner) (c : Char) : Option Scanner :=
  match s.current with
  | .none => s.between? c
  | .word cs =>
    if isWordChar c then some { s with current := .word (c :: cs) }
    else s.close?.bind fun closed => closed.between? c
  | .number cs =>
    if isNumberChar c then some { s with current := .number (c :: cs) }
    else s.close?.bind fun closed => closed.between? c
  | .string pieces escape => s.inString? pieces c escape

end Scanner

/-- The tokens of a text, if it consists of tokens and blanks only. -/
def Token.scan? (text : List Char) : Option (List Token) := do
  let last ← text.foldlM Scanner.step Scanner.start
  let closed ← last.close?
  some closed.reversed.reverse

/-- The text of a written string. A number in the surrogate range has a meaning
only as the first or the second half of a pair. -/
def Piece.decode? : List Piece → Option (List Char)
  | [] => some []
  | .char c :: rest => (decode? rest).map (c :: ·)
  | .unit n :: .unit m :: rest =>
    if 0xD800 ≤ n ∧ n < 0xDC00 then
      if 0xDC00 ≤ m ∧ m < 0xE000 then
        (decode? rest).map (Char.ofNat (0x10000 + (n - 0xD800) * 0x400 + (m - 0xDC00)) :: ·)
      else none
    else if 0xDC00 ≤ n ∧ n < 0xE000 then none
    else (decode? (.unit m :: rest)).map (Char.ofNat n :: ·)
  | .unit n :: rest =>
    if 0xD800 ≤ n ∧ n < 0xE000 then none
    else (decode? rest).map (Char.ofNat n :: ·)

end UiTemplate.Json
