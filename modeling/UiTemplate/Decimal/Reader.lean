import UiTemplate.Number.Literal

/-!
Reading floating-point numbers from decimal texts with a single rounding. Unlike
a number in a document a text may have a plus sign, leading zeros, and a point
with digits on one side only.
-/

namespace UiTemplate.Binary64

/-- The number nearest to `digits * 10 ^ power`, if it is in range. Magnitudes
that are far too large or far too small are told by their number of digits. -/
def ofDecimal? (negative : Bool) (digits : Nat) (power : Int) : Option Binary64 :=
  let leading := power + (Nat.toDigits 10 digits).length
  if digits = 0 ∨ leading < -400 then some (.zero negative)
  else if 400 < leading then none
  else ofRatio? negative (digits * Nat.pow 10 power.toNat) (Nat.pow 10 (-power).toNat)

/-- The power of ten at the end of a text. Nothing at all is the power zero. -/
def power? (text : List Char) : Option Int :=
  match text with
  | [] => some 0
  | e :: rest =>
    if e = 'e' ∨ e = 'E' then
      (Literal.exponent? rest).map fun (negative, digits) =>
        let n : Int := Text.digitsValue digits
        if negative then -n else n
    else none

/-- The number nearest to the one that a text says, if it is in range. -/
def ofText? (text : List Char) : Option Binary64 := do
  let (negative, text) :=
    match text with
    | '-' :: rest => (true, rest)
    | '+' :: rest => (false, rest)
    | _ => (false, text)
  let integer := text.takeWhile Char.isDigit
  let text := text.dropWhile Char.isDigit
  let (fraction, text) :=
    match text with
    | '.' :: rest => (rest.takeWhile Char.isDigit, rest.dropWhile Char.isDigit)
    | _ => ([], text)
  let digits := integer ++ fraction
  if digits.isEmpty then none
  let power ← power? text
  ofDecimal? negative (Text.digitsValue digits) (power - fraction.length)

end UiTemplate.Binary64
