import UiTemplate.Decimal.Shortest

/-!
Where the digits of a number go. A layout says which numbers are written
without an exponent and how whole numbers look; the digits themselves come
from `Decimal.shortest`.
-/

namespace UiTemplate.Decimal

/-- The decisions a format takes about the text of a floating-point number. -/
structure Layout where
  /-- Which of two equally near shortest decimals is written. -/
  tie : Tie
  /-- The powers of ten of the first digit for which no exponent is written:
  from the first up to, but not including, the second. Without bounds an
  exponent is never written. -/
  plain : Option (Int × Int)
  /-- Whole numbers are written with all their digits, not just the shortest. -/
  wholeExact : Bool
  /-- Whole numbers written without an exponent end in a point and a zero. -/
  wholePoint : Bool

/-- Digits without an exponent, a point where one is needed. -/
def plainText (wholePoint : Bool) (d : Digits) : List Char :=
  if d.leading < 0 then
    '0' :: '.' :: (List.replicate (-d.leading - 1).toNat '0' ++ d.digits)
  else
    let places := d.leading.toNat + 1
    if d.digits.length ≤ places then
      d.digits ++ List.replicate (places - d.digits.length) '0' ++
        (if wholePoint then ['.', '0'] else [])
    else
      d.digits.take places ++ '.' :: d.digits.drop places

/-- The first digit, a point if there are more, and a signed exponent. -/
def exponentText (d : Digits) : List Char :=
  let mantissa :=
    match d.digits with
    | first :: second :: rest => first :: '.' :: second :: rest
    | digits => digits
  let sign := if d.leading < 0 then '-' else '+'
  mantissa ++ 'e' :: sign :: Nat.toDigits 10 d.leading.natAbs

def Layout.write (layout : Layout) (x : Binary64) : List Char :=
  let sign := if x.negative then ['-'] else []
  let exact :=
    if layout.wholeExact then x.natural?.map (Nat.toDigits 10) else none
  match exact with
  | some digits => sign ++ digits
  | none =>
    let d := shortest layout.tie x.rank
    match layout.plain with
    | none => sign ++ plainText layout.wholePoint d
    | some (low, high) =>
      if low ≤ d.leading ∧ d.leading < high then sign ++ plainText layout.wholePoint d
      else sign ++ exponentText d

end UiTemplate.Decimal
