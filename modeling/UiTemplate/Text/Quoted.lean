import UiTemplate.Text.Shapeless

/-!
Texts in quotes, as they are shown to a developer: nothing in them is invisible
or could be taken for the end of the text.
-/

namespace UiTemplate.Text

/-- A character inside quotes: the usual short escapes, and the number in
hexadecimal for the other characters that could not be recognised. -/
def quotedChar (c : Char) : List Char :=
  if c = '"' ∨ c = '\\' then ['\\', c]
  else if c = '\n' then ['\\', 'n']
  else if c = '\r' then ['\\', 'r']
  else if c = '\t' then ['\\', 't']
  else if c = '\x00' then ['\\', '0']
  else if c.val < 0x20 ∨ c.val = 0x7f ∨ isShapeless c then
    "\\u\x7b".toList ++ Nat.toDigits 16 c.toNat ++ ['\x7d']
  else [c]

def quoted (text : String) : List Char :=
  '"' :: (text.toList.flatMap quotedChar ++ ['"'])

end UiTemplate.Text
