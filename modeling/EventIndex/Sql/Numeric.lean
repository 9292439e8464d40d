import EventIndex.Text.Decimal

/-!
# Decimal numbers

Numbers as a database keeps them, with as many digits as are needed and a fixed number of places
after the point. On their way they pass through a decimal of 96 bits and at most 28 places, which
does not hold them all.
-/

namespace EventIndex.Sql

/-- The number `unscaled / 10 ^ places`. -/
structure Numeric where
  unscaled : Int
  places : Nat
deriving DecidableEq, Repr

namespace Numeric

def ofNat (n : Nat) : Numeric :=
  ⟨n, 0⟩

/-- How many units of the last place make one. -/
def scale (places : Nat) : Int :=
  (Nat.pow 10 places : Nat)

def whole? (n : Numeric) : Option Int :=
  if n.unscaled % scale n.places = 0 then some (n.unscaled / scale n.places) else none

def text (n : Numeric) : String :=
  let digits := Nat.toDigits 10 n.unscaled.natAbs
  let padded := List.replicate (n.places + 1 - digits.length) '0' ++ digits
  let (whole, fraction) := padded.splitAt (padded.length - n.places)
  let sign := if n.unscaled < 0 then ['-'] else []
  let point := if n.places = 0 then [] else ['.']
  String.ofList (sign ++ whole ++ point ++ fraction)

/-- Reads digits with an optional minus sign before them and an optional point among them. -/
def ofText? (s : String) : Option Numeric :=
  let (negative, digits) := match s.toList with
    | '-' :: cs => (true, cs)
    | cs => (false, cs)
  let whole := digits.takeWhile (· ≠ '.')
  let fraction := (digits.drop whole.length).drop 1
  (Text.natOfDigits? (whole ++ fraction)).map fun n =>
    ⟨if negative then -Int.ofNat n else Int.ofNat n, fraction.length⟩

/-- The quotient rounded to the nearest number, a half to the even one. -/
def roundDiv (n d : Nat) : Nat :=
  let up := d < 2 * (n % d) ∨ (d = 2 * (n % d) ∧ n / d % 2 = 1)
  if up then n / d + 1 else n / d

def maxPlaces : Nat := 28

/-- The magnitudes of 96 bits are below this. -/
def magnitudeLimit : Nat := 0x1000000000000000000000000

/-- The number with the fewest places taken off, so that its digits fit 96 bits. -/
def shorten? (n : Numeric) : Option Numeric :=
  (List.range (n.places + 1)).findSome? fun cut =>
    let magnitude := roundDiv n.unscaled.natAbs (Nat.pow 10 cut)
    if magnitude < magnitudeLimit then some ⟨n.unscaled.sign * magnitude, n.places - cut⟩ else none

/-- The number as a decimal holds it, if it does. Digits beyond the last place are not dropped, but
digits within may be rounded. Zero has no places. -/
def fit? (n : Numeric) : Option Numeric :=
  let beyond := scale (n.places - maxPlaces)
  if n.unscaled = 0 then some ⟨0, 0⟩
  else if n.unscaled % beyond = 0 then shorten? ⟨n.unscaled / beyond, min n.places maxPlaces⟩
  else none

theorem scale_zero : scale 0 = 1 := rfl

end Numeric

end EventIndex.Sql
