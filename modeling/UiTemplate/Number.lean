import UiTemplate.Decimal.Layout

/-!
The numbers of documents and contexts. A whole number in the range of the
64-bit words is kept exactly; every other number is a floating-point number.
The two kinds are never equal to each other, so a document keeps the
difference between `1` and `1.0`.
-/

namespace UiTemplate

/-- A whole number that fits a signed or an unsigned 64-bit word. -/
structure Whole where
  value : Int
  atLeast : -9223372036854775808 ≤ value
  below : value < 18446744073709551616
deriving DecidableEq

def Whole.ofInt? (n : Int) : Option Whole :=
  if h : -9223372036854775808 ≤ n ∧ n < 18446744073709551616 then some ⟨n, h.1, h.2⟩ else none

inductive Number where
  | whole (n : Whole)
  | real (x : Binary64)
deriving DecidableEq

namespace Number

/-- Equality of numbers: same kind and same value. -/
def same : Number → Number → Bool
  | .whole m, .whole n => m == n
  | .real x, .real y => x.same y
  | _, _ => false

def toBinary64 : Number → Binary64
  | .whole n => (Binary64.ofInt? n.value).getD (.zero false)
  | .real x => x

/-- How floating-point numbers are written in JSON texts: as short as
possible, plainly between a hundred thousandth and ten quadrillions, and always
recognisable as not whole numbers. -/
def jsonLayout : Decimal.Layout where
  tie := .toEven
  plain := some (-5, 16)
  wholeExact := false
  wholePoint := true

/-- How floating-point numbers look inside other texts: whole ones like whole
numbers, the others as short as possible, and none with an exponent. -/
def textLayout : Decimal.Layout where
  tie := .up
  plain := none
  wholeExact := true
  wholePoint := false

def integerText (n : Int) : List Char :=
  if n < 0 then '-' :: Nat.toDigits 10 n.natAbs else Nat.toDigits 10 n.natAbs

def jsonChars : Number → List Char
  | .whole n => integerText n.value
  | .real x => jsonLayout.write x

def textChars : Number → List Char
  | .whole n => integerText n.value
  | .real x => textLayout.write x

end Number

end UiTemplate
