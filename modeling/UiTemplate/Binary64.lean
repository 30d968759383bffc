/-!
The finite floating-point numbers of the 64-bit binary format, with exact
arithmetic underneath. A number is its sign and its rank among the magnitudes:
rank `0` is zero, rank `1` the least positive number, and so on without gaps,
so every number has one representation and infinities and the not-a-numbers have
none. Operations compute the exact result as a quotient of naturals and round
it once, to the nearest number and to the even rank when two are equally near.
-/

namespace UiTemplate

/-- A finite number of the 64-bit binary format. The two zeros are different
representations of equal numbers. -/
structure Binary64 where
  negative : Bool
  /-- How many magnitudes are smaller. -/
  rank : Nat
  finite : rank < 2047 * Nat.pow 2 52
deriving DecidableEq

namespace Binary64

/-- One more than the greatest rank: an infinity would come here. -/
def ranks : Nat := 2047 * Nat.pow 2 52

/-- The integer that is scaled by a power of two to give the magnitude. -/
def significandOf (rank : Nat) : Nat :=
  if rank < Nat.pow 2 52 then rank else Nat.pow 2 52 + rank % Nat.pow 2 52

/-- How far the power of two lies above the least one, `2 ^ -1074`. -/
def scaleOf (rank : Nat) : Nat :=
  rank / Nat.pow 2 52 - 1

/-- The magnitude of a rank as a quotient of naturals. -/
def ratioOf (rank : Nat) : Nat × Nat :=
  (significandOf rank * Nat.pow 2 (scaleOf rank), Nat.pow 2 1074)

/-- The quotient rounded to the nearest integer, a half to the even one. The
divisor is positive. -/
def divideToEven (num den : Nat) : Nat :=
  let quotient := num / den
  let twice := 2 * (num % den)
  if twice < den then quotient
  else if den < twice then quotient + 1
  else quotient + quotient % 2

/-- The rank of the magnitude nearest to `num / den`. The scale is chosen so
that the significand has 53 binary digits, or the least scale if the quotient is
too small for that. Counting significands on from each scale's first rank makes
a significand that is rounded up to `2 ^ 53` the first one of the next scale.
The result is `ranks` or more where the quotient is out of range. -/
def nearestRank (num den : Nat) : Nat :=
  if num = 0 then 0 else
  let scale := num.log2 + 1074 - den.log2 - 53
  let scale :=
    if num * Nat.pow 2 1074 < den * Nat.pow 2 (scale + 53) then scale else scale + 1
  scale * Nat.pow 2 52 + divideToEven (num * Nat.pow 2 1074) (den * Nat.pow 2 scale)

def ofRank? (negative : Bool) (rank : Nat) : Option Binary64 :=
  if h : rank < 2047 * Nat.pow 2 52 then some ⟨negative, rank, h⟩ else none

def ofRatio? (negative : Bool) (num den : Nat) : Option Binary64 :=
  ofRank? negative (nearestRank num den)

def zero (negative : Bool) : Binary64 :=
  ⟨negative, 0, by decide⟩

/-- The number nearest to an integer; `none` for integers of more than a
thousand binary digits. -/
def ofInt? (n : Int) : Option Binary64 :=
  ofRatio? (n < 0) n.natAbs 1

def ratio (x : Binary64) : Nat × Nat :=
  ratioOf x.rank

def neg (x : Binary64) : Binary64 :=
  { x with negative := !x.negative }

/-- The rounded product, if it is in range. -/
def mul? (x y : Binary64) : Option Binary64 :=
  ofRatio? (x.negative != y.negative) (x.ratio.1 * y.ratio.1) (x.ratio.2 * y.ratio.2)

/-- The rounded quotient, if it is in range. A zero divisor is out of range. -/
def div? (x y : Binary64) : Option Binary64 :=
  if y.rank = 0 then none
  else ofRatio? (x.negative != y.negative) (x.ratio.1 * y.ratio.2) (x.ratio.2 * y.ratio.1)

def natural? (x : Binary64) : Option Nat :=
  let (num, den) := x.ratio
  if num % den = 0 then some (num / den) else none

/-- Numbers are equal when their values are: the two zeros are equal. -/
def same (x y : Binary64) : Bool :=
  x.rank == y.rank && (x.negative == y.negative || x.rank == 0)

theorem same_iff (x y : Binary64) :
    x.same y = true ↔ x.rank = y.rank ∧ (x.negative = y.negative ∨ x.rank = 0) := by
  simp [same]

end Binary64

end UiTemplate
