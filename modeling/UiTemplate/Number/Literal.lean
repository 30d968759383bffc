import UiTemplate.Number
import UiTemplate.Text

/-!
Reading numbers. A JSON number is first taken apart by its grammar and then
given a value. Whole numbers in range are exact. For the others the digits are
gathered into one 64-bit significand and a power of ten, the significand is
rounded to a floating-point number, and that is multiplied or divided by the
rounded power; digits that no longer fit the significand only move the power.
So a long literal may differ in its last place from the nearest number, and
the reader is defined by these steps rather than by a single rounding.
-/

namespace UiTemplate

structure Literal where
  negative : Bool
  integer : List Char
  /-- The digits after the point, empty if there is no point. -/
  fraction : List Char
  /-- The sign and the digits of the exponent, if there is one. -/
  exponent : Option (Bool × List Char)
deriving DecidableEq

namespace Literal

/-- The digits at the start of a text, at least one, and what follows them. -/
def digits? (text : List Char) : Option (List Char × List Char) :=
  match text.takeWhile Char.isDigit with
  | [] => none
  | digits => some (digits, text.dropWhile Char.isDigit)

/-- A sign is optional before an exponent's digits. -/
def exponent? (text : List Char) : Option (Bool × List Char) := do
  let (negative, text) :=
    match text with
    | '-' :: rest => (true, rest)
    | '+' :: rest => (false, rest)
    | _ => (false, text)
  let (digits, rest) ← digits? text
  if rest.isEmpty then some (negative, digits) else none

/-- The fraction and the exponent, either of which may be missing. -/
def tail? (text : List Char) : Option (List Char × Option (Bool × List Char)) := do
  let (fraction, text) ←
    match text with
    | '.' :: rest => digits? rest
    | _ => some ([], text)
  match text with
  | [] => some (fraction, none)
  | c :: rest =>
    if c = 'e' ∨ c = 'E' then (exponent? rest).map fun e => (fraction, some e) else none

/-- The parts of a text that is a number by the grammar of JSON: digits
without a leading zero, then a fraction and an exponent if wanted. -/
def ofChars? (text : List Char) : Option Literal := do
  let (negative, text) :=
    match text with
    | '-' :: rest => (true, rest)
    | _ => (false, text)
  let (integer, text) ← digits? text
  if integer.head? = some '0' ∧ integer.length ≠ 1 then none
  let (fraction, exponent) ← tail? text
  some { negative, integer, fraction, exponent }

/-- Digits gathered so far: a significand below `2 ^ 64` and the power of ten
that it counts. Once a digit did not fit, no later one is added. -/
structure Gathered where
  significand : Nat
  power : Int
  full : Bool

/-- A digit before the point. One that does not fit raises the power. -/
def Gathered.integerDigit (g : Gathered) (c : Char) : Gathered :=
  let next := g.significand * 10 + (c.toNat - '0'.toNat)
  if !g.full && next < UInt64.size then { g with significand := next }
  else { g with power := g.power + 1, full := true }

/-- A digit after the point. One that does not fit is left out. -/
def Gathered.fractionDigit (g : Gathered) (c : Char) : Gathered :=
  let next := g.significand * 10 + (c.toNat - '0'.toNat)
  if !g.full && next < UInt64.size then { g with significand := next, power := g.power - 1 }
  else { g with full := true }

/-- The rounded power of ten, for exponents up to 308. -/
def powerOfTen? (exponent : Nat) : Option Binary64 :=
  Binary64.ofRatio? false (Nat.pow 10 exponent) 1

/-- A number divided by `10 ^ exponent`. Steps of 308 are taken until the rest
is within the range of powers or the number has become zero; `steps` is at
least the number of them. -/
def divideByPower : (steps : Nat) → Binary64 → (exponent : Nat) → Option Binary64
  | 0, x, _ => some x
  | steps + 1, x, exponent =>
    if exponent ≤ 308 then (powerOfTen? exponent).bind x.div?
    else if x.rank = 0 then some x
    else ((powerOfTen? 308).bind x.div?).bind fun y => divideByPower steps y (exponent - 308)

/-- `significand * 10 ^ power`, rounded at each step; `none` out of range. -/
def scale? (significand : Nat) (power : Int) : Option Binary64 := do
  let x ← Binary64.ofRatio? false significand 1
  if power < 0 then
    divideByPower (power.natAbs / 308 + 2) x power.natAbs
  else if power ≤ 308 then
    (powerOfTen? power.toNat).bind x.mul?
  else if significand = 0 then some x
  else none

/-- The greatest exponent that is read digit by digit. -/
def exponentLimit : Nat := 2147483647

def magnitude? (literal : Literal) : Option Binary64 :=
  let integer := literal.integer.foldl Gathered.integerDigit ⟨0, 0, false⟩
  let all := literal.fraction.foldl Gathered.fractionDigit { integer with full := false }
  match literal.exponent with
  | none => scale? all.significand all.power
  | some (negative, digits) =>
    let exponent := Text.digitsValue digits
    if exponentLimit < exponent then
      if all.significand = 0 || negative then some (.zero false) else none
    else if negative then scale? all.significand (all.power - exponent)
    else scale? all.significand (all.power + exponent)

end Literal

/-- The value of a literal. Without a fraction and an exponent it is a whole
number if it is in range, except that minus zero is always a floating-point
number. A literal too large for a floating-point number has no value. -/
def Number.ofLiteral? (literal : Literal) : Option Number :=
  let n : Int := Text.digitsValue literal.integer
  let whole? :=
    if !literal.fraction.isEmpty || literal.exponent.isSome then none
    else if literal.negative then if n = 0 then none else Whole.ofInt? (-n)
    else Whole.ofInt? n
  match whole? with
  | some n => some (.whole n)
  | none => literal.magnitude?.map fun x => .real { x with negative := literal.negative }

end UiTemplate
