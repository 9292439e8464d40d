import EventIndex.Json.Numeral
import EventIndex.Amount
import EventIndex.Text.Decimal

/-!
# Readers of a type

A reader takes a value of one type from the front of a text; its argument says how deep lists and
objects may still nest. Integers of the chain are written as numbers or as strings of digits. They
are read from text and from values that were read before, and both ways take the same spellings.
-/

namespace EventIndex.Json

abbrev Reader (α : Type) := Nat → Scan α

namespace Reader

variable {α β : Type}

def map (f : α → β) (r : Reader α) : Reader β :=
  fun depth => f <$> r depth

def read (r : Reader α) (s : String) : Except Error α :=
  (do let a ← r maxDepth; endText; pure a : Scan α).run' s.toList

def json : Reader Json := value

def string : Reader String := fun _ => stringFor "a string"

def bool : Reader Bool := fun _ => boolFor "a boolean"

def word32 : Reader UInt32 := fun _ => UInt32.ofNat <$> wordFor "u32" UInt32.size

def word64 : Reader UInt64 := fun _ => UInt64.ofNat <$> wordFor "u64" UInt64.size

def size : Reader UInt64 := fun _ => UInt64.ofNat <$> wordFor "usize" UInt64.size

def float : Reader Float := fun _ => floatFor "f64"

def optional (r : Reader α) : Reader (Option α) := fun depth => do
  if (← peek) = some 'n' then
    skip
    ident ['u', 'l', 'l']
    pure none
  else some <$> r depth

def list (r : Reader α) : Reader (List α) := fun depth => do
  match (← peek) with
  | none => throw .endOfValue
  | some c =>
    if c = '[' then
      match depth with
      | 0 => throw .recursionLimit
      | depth + 1 =>
        skip
        let as ← items (r depth)
        endList
        pure as
    else mismatch "a sequence"

/-- A string that `parse` understands. -/
def parsed (expected : String) (parse : String → Except Error α) : Reader α := fun _ => do
  match parse (← stringFor expected) with
  | .ok a => pure a
  | .error e => throw e

def variantName : Scan String := stringFor "variant identifier"

/-- The variant with the name, as a string, or as the name of the only field of an object with
`payload` as its value. -/
def variant (plain : String → Except Error α) (payload : String → Scan α) : Reader α :=
  fun depth => do
  match (← peek) with
  | none => throw .endOfValue
  | some c =>
    if c = '"' then
      match plain (← variantName) with
      | .ok a => pure a
      | .error e => throw e
    else if c = '\x7b' then
      if depth = 0 then throw .recursionLimit
      skip
      let a ← payload (← variantName)
      match (← peek) with
      | none => throw .endOfObject
      | some c => if c = '\x7d' then skip; pure a else throw .expectedValue
    else throw .expectedValue

/-- The value null where a variant has no payload. -/
def unitPayload : Scan Unit := do
  match (← peek) with
  | none => throw .endOfValue
  | some c => if c = 'n' then skip; ident ['u', 'l', 'l'] else mismatch "unit"

def choice (names : List (String × α)) : Reader α :=
  let find (name : String) : Except Error α :=
    match names.lookup name with
    | some a => .ok a
    | none => .error (.unknownVariant name (names.map Prod.fst))
  variant find fun name => do
    match find name with
    | .ok a =>
      colon
      unitPayload
      pure a
    | .error e => throw e

end Reader

/-! ## Integers of the chain -/

def integerForm : String := "an integer or a decimal integer string"

/-- The amount that an optional minus sign and digits spell. -/
def amountOfText? (s : String) : Option Amount :=
  (Text.intOfDigits? s.toList).bind Amount.ofInt?

def amountOfNumber (text : String) : Except Error Amount :=
  match amountOfText? text with
  | some a => .ok a
  | none => .error (.notAnInteger text)

def amountOfString (s : String) : Except Error Amount :=
  match amountOfText? s with
  | some a => .ok a
  | none => .error (.invalidValue (.string s) integerForm)

/-- The shortest text of the float that a number spells, if the number is spelled like it. -/
def floatSpelling? (text : String) : Option String :=
  match numberParts text.toList with
  | .error _ => none
  | .ok (p, _) =>
    let e : Int := match p.exponent with
      | some (negative, digits) =>
        let n := Nat.ofDigitChars 10 digits 0
        if negative then -n else n
      | none => 0
    let fraction := p.fraction.getD []
    let sign := if p.negative then ['-'] else []
    match Number.Decimal.round
        ⟨Nat.ofDigitChars 10 (p.whole ++ fraction) 0, e - fraction.length⟩ with
    | none => none
    | some b =>
      let shortest := sign ++ b.shortest.text
      if text.toList = shortest ∨ text.toList = sign ++ b.shortest.plainText then
        some (String.ofList shortest)
      else none

/-- How a value is named in an error. -/
def found : Json → Found
  | null => .null
  | bool b => .bool b
  | number _ => .number
  | string s => .string s
  | array _ => .sequence
  | object _ => .map

/-- The error for a number that is no integer of 128 bits. -/
def wideNumber (text : String) : Error :=
  match floatSpelling? text with
  | some float => .invalidType (.float float) integerForm
  | none => .notAnInteger text

/-- An integer as a number or a string of a value. An integer that fits 128 bits without a sign but
not with one is out of range; other numbers are refused as floats or as what they are. -/
def amountOfJson : Json → Except Error Amount
  | null => .error (.invalidType .null integerForm)
  | bool b => .error (.invalidType (.bool b) integerForm)
  | number text =>
    match Text.intOfDigits? text.toList with
    | some n =>
      match Amount.ofInt? n with
      | some a => .ok a
      | none =>
        if 0 ≤ n ∧ n < 0x100000000000000000000000000000000 then .error (.integerOutOfRange n)
        else .error (wideNumber text)
    | none => .error (wideNumber text)
  | string s => amountOfString s
  | array _ => .error (.invalidType .sequence integerForm)
  | object ((name, v) :: rest) =>
    if name = numberKey then
      match v with
      | string spelled => do
        let a ← amountOfNumber spelled
        if rest.isEmpty then .ok a
        else .error (.invalidLength (rest.length + 1) "fewer elements in map")
      | v => .error (.invalidType v.found "a string")
    else .error (.invalidType .map integerForm)
  | object [] => .error (.invalidType .map integerForm)

/-- The integer as a value of a type that holds the integers from `least` to `most`. -/
def inRange (least most : Int) (a : Amount) : Except Error Int :=
  if least ≤ a.val ∧ a.val ≤ most then .ok a.val else .error (.integerOutOfRange a.val)

/-- An integer as a number or a string at the front of a text. A number of more than 64 bits is
read by its digits. -/
def scanAmount (depth : Nat) : Scan Amount := do
  let fail {α : Type} (found : Found) : Scan α := throw (.invalidType found integerForm)
  match (← peek) with
  | none => throw .endOfValue
  | some c =>
    if c = '-' ∨ c.isDigit then
      match amountOfNumber (← numberParts).text with
      | .ok a => pure a
      | .error e => throw e
    else if c = '"' then
      skip
      match amountOfString (← stringBody) with
      | .ok a => pure a
      | .error e => throw e
    else if c = '[' then
      if depth = 0 then throw .recursionLimit else fail .sequence
    else if c = '\x7b' then
      if depth = 0 then throw .recursionLimit
      skip
      if !(← hasKey true) then fail .map
      if (← stringBody) ≠ numberKey then fail .map
      colon
      match amountOfNumber (← stringFor "a string") with
      | .error e => throw e
      | .ok a =>
        endObject
        pure a
    else mismatch integerForm

def Reader.integer (least most : Int) : Reader Int := fun depth => do
  match inRange least most (← scanAmount depth) with
  | .ok n => pure n
  | .error e => throw e

def Reader.amount : Reader Amount := scanAmount

end EventIndex.Json
