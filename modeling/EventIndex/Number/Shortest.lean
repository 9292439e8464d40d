/-!
# Shortest decimals of binary numbers

A double-precision number is `m * 2 ^ q`. Of the decimals that round to it, the one with the fewest
digits is taken, and of those the nearest. All arithmetic is exact.
-/

namespace EventIndex.Number

/-- The magnitude of a finite double: `significand * 2 ^ exponent`. -/
structure Binary where
  significand : Nat
  exponent : Int
deriving DecidableEq, Repr

/-- The magnitude `digits * 10 ^ exponent`. -/
structure Decimal where
  digits : Nat
  exponent : Int
deriving DecidableEq, Repr

/-- A power with an exponent of either sign, as numerator and denominator. -/
def power (base : Nat) (e : Int) : Nat × Nat :=
  if 0 ≤ e then (Nat.pow base e.toNat, 1) else (1, Nat.pow base (-e).toNat)

/-- The quotient rounded to the nearest integer, a tie to the even one. -/
def roundDiv (num den : Nat) : Nat :=
  let (q, r) := (num / den, num % den)
  if 2 * r < den ∨ (2 * r = den ∧ q % 2 = 0) then q else q + 1

/-- The double nearest to a decimal, unless that is infinite. -/
def Decimal.round (d : Decimal) : Option Binary :=
  let size : Int := (Nat.toDigits 10 d.digits).length + d.exponent
  if d.digits = 0 ∨ size < -330 then some ⟨0, -1074⟩
  else if 310 < size then none
  else
    let (num, den) := power 10 d.exponent
    let num := d.digits * num
    let guess : Int := (num.log2 : Int) - den.log2 - 53
    let scaled (q : Int) : Nat :=
      let (up, down) := power 2 q
      roundDiv (num * down) (den * up)
    let q := max (-1074) (if scaled guess < 0x20000000000000 then guess else guess + 1)
    let m := scaled q
    let (m, q) := if m = 0x20000000000000 then (0x10000000000000, q + 1) else (m, q)
    if 971 < q then none else some ⟨m, q⟩

/-- The decimal of at most `count` digits nearest to the number, if it rounds to the number. With
the unit `2 ^ (exponent - 2)` the number is `4 * m`, and the numbers that round to it reach half a
unit of `m` to both sides, a quarter below a power of two. -/
def Binary.nearest? (b : Binary) (size : Int) (count : Nat) : Option Decimal :=
  let value := 4 * b.significand
  let low := if b.significand = 0x10000000000000 ∧ -1074 < b.exponent then value - 1 else value - 2
  let high := value + 2
  let k := size - count
  let (num, den) := power 2 (b.exponent - 2)
  let (up, down) := power 10 k
  let (num, den) := (num * down, den * up)
  let floor := value * num / den
  let inside (d : Nat) : Bool :=
    if b.significand % 2 = 0 then low * num ≤ d * den && d * den ≤ high * num
    else low * num < d * den && d * den < high * num
  let below := inside floor
  let above := inside (floor + 1)
  let closer := 2 * (value * num - floor * den) < den ∨
    (2 * (value * num - floor * den) = den ∧ floor % 2 = 0)
  if below && (!above || closer) then some ⟨floor, k⟩
  else if above then some ⟨floor + 1, k⟩
  else none

/-- The number of digits before the point; nought and less for numbers below one tenth. -/
def Binary.size (b : Binary) : Int :=
  let (num, den) := power 2 b.exponent
  let below (p : Int) : Bool :=
    let (up, down) := power 10 p
    b.significand * num * down < up * den
  let guess : Int := ((b.significand.log2 : Int) + b.exponent) * 30103 / 100000
  if below guess then guess else if below (guess + 1) then guess + 1 else guess + 2

/-- Moves zeros at the end of the digits into the exponent. -/
def Decimal.strip : Nat → Decimal → Decimal
  | 0, d => d
  | n + 1, d =>
    if d.digits % 10 = 0 ∧ d.digits ≠ 0 then Decimal.strip n ⟨d.digits / 10, d.exponent + 1⟩ else d

def Binary.shortest (b : Binary) : Decimal :=
  if b.significand = 0 then ⟨0, 0⟩
  else
    let size := b.size
    match (List.range 17).findSome? fun n => b.nearest? size (n + 1) with
    | some d => d.strip 20
    | none => ⟨b.significand, b.exponent⟩

/-- How decimals are written: positional, with at least one digit on each side of the point, for
numbers from `1e-5` up to `1e16`, and otherwise with one digit before the point and a signed
exponent. -/
def Decimal.text (d : Decimal) : List Char :=
  let digits := Nat.toDigits 10 d.digits
  let point : Int := digits.length + d.exponent
  if d.digits = 0 then ['0', '.', '0']
  else if 0 ≤ d.exponent ∧ point ≤ 16 then
    digits ++ List.replicate d.exponent.toNat '0' ++ ['.', '0']
  else if 0 < point ∧ point ≤ 16 then
    digits.take point.toNat ++ '.' :: digits.drop point.toNat
  else if -5 < point ∧ point ≤ 0 then
    ['0', '.'] ++ List.replicate (-point).toNat '0' ++ digits
  else
    let e := point - 1
    let sign := if e < 0 then '-' else '+'
    let fraction := if digits.length = 1 then [] else '.' :: digits.drop 1
    digits.take 1 ++ fraction ++ 'e' :: sign :: Nat.toDigits 10 e.natAbs

/-- The decimal without an exponent, and without a point if it is an integer. -/
def Decimal.plainText (d : Decimal) : List Char :=
  let digits := Nat.toDigits 10 d.digits
  let point : Int := digits.length + d.exponent
  if d.digits = 0 then ['0']
  else if 0 ≤ d.exponent then digits ++ List.replicate d.exponent.toNat '0'
  else if 0 < point then digits.take point.toNat ++ '.' :: digits.drop point.toNat
  else ['0', '.'] ++ List.replicate (-point).toNat '0' ++ digits

def Binary.ofFloat (x : Float) : Binary :=
  let bits := x.toBits.toNat
  let e : Nat := bits / 0x10000000000000 % 0x800
  let m : Nat := bits % 0x10000000000000
  if e = 0 then ⟨m, -1074⟩ else ⟨m + 0x10000000000000, Int.ofNat e - 1075⟩

def floatText (x : Float) : String :=
  let sign := if x.toBits.toNat / 0x8000000000000000 = 1 then ['-'] else []
  String.ofList (sign ++ (Binary.ofFloat x).shortest.text)

end EventIndex.Number
