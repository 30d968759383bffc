import UiTemplate.Binary64

/-!
The fewest decimal digits that read back as a given number. For one digit, two
digits and so on the two neighbours of the exact value on that decimal grid
are tried. If any point of a grid reads back, one of the two neighbours does,
because the values that round to a number form an interval around it; so the
first grid with a hit has the fewest digits.
-/

namespace UiTemplate.Decimal

/-- What to do when two decimals are equally near. -/
inductive Tie where
  | toEven
  | up
deriving DecidableEq

/-- Decimal digits and the power of ten that the first of them counts. -/
structure Digits where
  digits : List Char
  leading : Int
deriving DecidableEq

def ratio (count : Nat) (exponent : Int) : Nat × Nat :=
  (count * Nat.pow 10 exponent.toNat, Nat.pow 10 (-exponent).toNat)

/-- Whether the decimal rounds to the magnitude of this rank. -/
def readsBack (rank count : Nat) (exponent : Int) : Bool :=
  Binary64.nearestRank (ratio count exponent).1 (ratio count exponent).2 == rank

def width (n : Nat) : Nat :=
  (Nat.toDigits 10 n).length

/-- The greatest power of ten not above the positive quotient `num / den`. -/
def leadingExponent (num den : Nat) : Int :=
  if den ≤ num then (width (num / den) : Int) - 1
  else -(width ((den + num - 1) / num - 1) : Int)

/-- The multiple of `10 ^ exponent` that reads back and is nearest to the
magnitude, if one of the two neighbours does. -/
def onGrid? (tie : Tie) (rank : Nat) (exponent : Int) : Option Nat :=
  let (num, den) := Binary64.ratioOf rank
  let num := num * Nat.pow 10 (-exponent).toNat
  let den := den * Nat.pow 10 exponent.toNat
  let below := num / den
  let twice := 2 * (num % den)
  let upper :=
    if twice < den then false
    else if den < twice then true
    else tie == .up || below % 2 == 1
  match readsBack rank below exponent, readsBack rank (below + 1) exponent with
  | false, false => none
  | true, false => some below
  | false, true => some (below + 1)
  | true, true => some (if upper then below + 1 else below)

/-- The digits of a count of `10 ^ exponent`, without the zeros at its end. -/
def Digits.ofCount (count : Nat) (exponent : Int) : Digits :=
  let digits := Nat.toDigits 10 count
  { digits := (digits.reverse.dropWhile (· == '0')).reverse
    leading := exponent + digits.length - 1 }

/-- The fewest digits that read back as the magnitude of this rank, and the
nearest to it among those. Seventeen digits are enough for every rank. -/
def shortest (tie : Tie) (rank : Nat) : Digits :=
  if rank = 0 then ⟨['0'], 0⟩ else
  let (num, den) := Binary64.ratioOf rank
  let leading := leadingExponent num den
  let hit := (List.range 17).findSome? fun (places : Nat) =>
    (onGrid? tie rank (leading - places)).map fun count => (count, leading - places)
  match hit with
  | some (count, exponent) => .ofCount count exponent
  | none => .ofCount (num / den) 0

end UiTemplate.Decimal
