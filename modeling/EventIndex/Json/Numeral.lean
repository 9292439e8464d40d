import EventIndex.Json.Parser
import EventIndex.Number.Shortest

/-!
# Numbers of a fixed type

Words of 32 and 64 bits and floats, read from text. A number without fraction and exponent that fits
a word is an integer; any other is a float, found from its leading digits and a power of ten by one
multiplication or division.
-/

namespace EventIndex.Json

inductive Numeral where
  | integer (n : Int)
  | float (x : Float)

/-- Appends digits to a significand while it fits a word; gives the number of digits used. -/
def accumulate (significand : Nat) : List Char → Nat × Nat
  | [] => (significand, 0)
  | c :: cs =>
    let next := significand * 10 + (c.toNat - 48)
    if next < UInt64.size then
      let (s, used) := accumulate next cs
      (s, used + 1)
    else (significand, 0)

def powerOfTen (n : Nat) : Float :=
  Float.ofScientific 1 false n

/-- `significand * 10 ^ exponent`, by steps of 308 while the exponent is below that. -/
def scale (significand : Nat) (exponent : Int) : Except Error Float :=
  let x := significand.toUInt64.toFloat
  if 0 ≤ exponent then
    if exponent ≤ 308 then
      let y := x * powerOfTen exponent.toNat
      if y.isInf then .error .numberOutOfRange else .ok y
    else if significand = 0 then .ok x
    else .error .numberOutOfRange
  else .ok (shrink 8 x (-exponent).toNat)
where
  /-- After a few steps nothing is left, so `steps` need not be many. -/
  shrink : Nat → Float → Nat → Float
  | 0, x, _ => x
  | steps + 1, x, n =>
    if n ≤ 308 then x / powerOfTen n else shrink steps (x / powerOfTen 308) (n - 308)

/-- The magnitude of a number that is taken for a float. -/
def NumberParts.magnitude (p : NumberParts) : Except Error Float :=
  let (s, used) := accumulate 0 p.whole
  let wholeExponent : Int := p.whole.length - used
  let (s, fractionUsed) := accumulate s (p.fraction.getD [])
  let exponent := wholeExponent - fractionUsed
  match p.exponent with
  | none => scale s exponent
  | some (negative, digits) =>
    let e := Nat.ofDigitChars 10 digits 0
    if 0x80000000 ≤ e then
      if s ≠ 0 ∧ !negative then .error .numberOutOfRange else .ok 0
    else
      let final := if negative then exponent - e else exponent + e
      scale s (max (-0x80000000) (min final 0x7fffffff))

def NumberParts.numeral (p : NumberParts) : Except Error Numeral :=
  match p.word? with
  | some n => .ok (.integer n)
  | none => p.magnitude.map fun x => .float (if p.negative then -x else x)

/-- A number, where `expected` was asked for. -/
def numeralFor (expected : String) : Scan Numeral := do
  match (← peek) with
  | none => throw .endOfValue
  | some c =>
    if c = '-' ∨ c.isDigit then
      match (← numberParts).numeral with
      | .ok n => pure n
      | .error e => throw e
    else mismatch expected

/-- An integer of a type with this name, if it is below `bound`. -/
def wordFor (expected : String) (bound : Nat) : Scan Nat := do
  match (← numeralFor expected) with
  | .integer n =>
    if 0 ≤ n ∧ n < bound then pure n.toNat else throw (.invalidValue (.integer n) expected)
  | .float x => throw (.invalidType (.float (Number.floatText x)) expected)

def floatFor (expected : String) : Scan Float := do
  match (← numeralFor expected) with
  | .integer n =>
    pure (if n < 0 then -n.natAbs.toUInt64.toFloat else n.toNat.toUInt64.toFloat)
  | .float x => pure x

def boolFor (expected : String) : Scan Bool := do
  match (← peek) with
  | none => throw .endOfValue
  | some c =>
    if c = 't' then skip; ident ['r', 'u', 'e']; pure true
    else if c = 'f' then skip; ident ['a', 'l', 's', 'e']; pure false
    else mismatch expected

end EventIndex.Json
