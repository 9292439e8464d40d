import EventIndex.Json.Basic
import EventIndex.Json.Error

/-!
# Scanning JSON text

The tokens of JSON and the marks between them: blanks, the words for null and truth values,
strings, numbers, commas, colons and closing brackets. A number keeps its text, but its exponent is
written with a small letter and a sign.
-/

namespace EventIndex.Json

/-- Reading from the front of a text. -/
abbrev Scan := StateT (List Char) (Except Error)

def isBlank (c : Char) : Bool :=
  c = ' ' || c = '\n' || c = '\t' || c = '\r'

/-- Skips blanks, then gives the next character without taking it. -/
def peek : Scan (Option Char) := do
  modify (·.dropWhile isBlank)
  return (← get).head?

def skip : Scan Unit :=
  modify List.tail

/-- Takes the rest of a word whose first letter is taken. -/
def ident : List Char → Scan Unit
  | [] => pure ()
  | c :: cs => do
    match (← get) with
    | [] => throw .endOfValue
    | d :: rest =>
      set rest
      if d = c then ident cs else throw .expectedIdent

/-! ## Strings -/

def hexValue? (c : Char) : Option Nat :=
  if c.isDigit then some (c.toNat - 48)
  else if 'a' ≤ c ∧ c ≤ 'f' then some (c.toNat - 87)
  else if 'A' ≤ c ∧ c ≤ 'F' then some (c.toNat - 55)
  else none

def hexValue4? (a b c d : Char) : Option Nat := do
  return (((← hexValue? a) * 16 + (← hexValue? b)) * 16 + (← hexValue? c)) * 16 + (← hexValue? d)

/-- The error of an escape without four digits: the text ends if fewer than four bytes are left. -/
def hexError (cs : List Char) : Error :=
  if (cs.take 4).foldl (fun size c => size + c.utf8Size) 0 < 4 then .endOfString else .invalidEscape

/-- The character that a letter stands for after a backslash. -/
def namedEscape? (c : Char) : Option Char :=
  match c with
  | '"' => some '"'
  | '\\' => some '\\'
  | '/' => some '/'
  | 'b' => some '\x08'
  | 'f' => some '\x0c'
  | 'n' => some '\n'
  | 'r' => some '\r'
  | 't' => some '\t'
  | _ => none

/-- The error after the escape of a high surrogate that no escape follows. -/
def surrogateError (cs : List Char) : Error :=
  match cs with
  | [] => .endOfString
  | '\\' :: [] => .endOfString
  | '\\' :: 'u' :: cs => hexError cs
  | _ => .unexpectedEndOfEscape

def consChar (c : Char) : List Char × List Char → List Char × List Char
  | (s, rest) => (c :: s, rest)

/-- The characters up to the closing quote, and what follows it. -/
def stringRest : List Char → Except Error (List Char × List Char)
  | [] => .error .endOfString
  | c :: cs =>
    if c = '"' then .ok ([], cs)
    else if c.toNat < 0x20 then .error .controlCharacter
    else if c ≠ '\\' then (stringRest cs).map (consChar c)
    else match cs with
      | [] => .error .endOfString
      | 'u' :: cs =>
        match cs with
        | h₁ :: h₂ :: h₃ :: h₄ :: cs =>
          match hexValue4? h₁ h₂ h₃ h₄ with
          | none => .error (hexError [h₁, h₂, h₃, h₄])
          | some n =>
            if 0xDC00 ≤ n ∧ n ≤ 0xDFFF then .error .loneSurrogate
            else if n < 0xD800 ∨ 0xDBFF < n then (stringRest cs).map (consChar (Char.ofNat n))
            else match cs with
              | '\\' :: 'u' :: l₁ :: l₂ :: l₃ :: l₄ :: cs =>
                match hexValue4? l₁ l₂ l₃ l₄ with
                | none => .error (hexError [l₁, l₂, l₃, l₄])
                | some m =>
                  if 0xDC00 ≤ m ∧ m ≤ 0xDFFF then
                    let c := Char.ofNat (0x10000 + (n - 0xD800) * 0x400 + (m - 0xDC00))
                    (stringRest cs).map (consChar c)
                  else .error .loneSurrogate
              | cs => .error (surrogateError cs)
        | cs => .error (hexError cs)
      | e :: cs =>
        match namedEscape? e with
        | some c => (stringRest cs).map (consChar c)
        | none => .error .invalidEscape

/-- The string whose opening quote is taken. -/
def stringBody : Scan String := fun cs =>
  (stringRest cs).map fun (s, rest) => (String.ofList s, rest)

/-! ## Numbers -/

structure NumberParts where
  negative : Bool
  whole : List Char
  /-- The digits after the point, if there is one. -/
  fraction : Option (List Char)
  /-- Whether the exponent is negative, and its digits. -/
  exponent : Option (Bool × List Char)
deriving DecidableEq

def NumberParts.text (p : NumberParts) : String :=
  let sign := if p.negative then ['-'] else []
  let fraction := match p.fraction with
    | some digits => '.' :: digits
    | none => []
  let exponent := match p.exponent with
    | some (negative, digits) => 'e' :: (if negative then '-' else '+') :: digits
    | none => []
  String.ofList (sign ++ p.whole ++ fraction ++ exponent)

/-- One digit or more. -/
def digits : Scan (List Char) := do
  let cs ← get
  match cs.takeWhile Char.isDigit with
  | [] => throw (if cs.isEmpty then .endOfValue else .invalidNumber)
  | ds =>
    set (cs.drop ds.length)
    pure ds

/-- The digits before the point. A zero stands alone. -/
def wholeDigits : Scan (List Char) := do
  let ds ← digits
  match ds with
  | '0' :: _ :: _ => throw .invalidNumber
  | ds => pure ds

def fractionDigits : Scan (Option (List Char)) := do
  match (← get) with
  | '.' :: rest =>
    set rest
    some <$> digits
  | _ => pure none

def exponentDigits : Scan (Option (Bool × List Char)) := do
  match (← get) with
  | c :: rest =>
    if c = 'e' ∨ c = 'E' then
      match rest with
      | '-' :: rest => set rest; return some (true, ← digits)
      | '+' :: rest => set rest; return some (false, ← digits)
      | rest => set rest; return some (false, ← digits)
    else pure none
  | [] => pure none

/-- A number that starts at the next character, which is a minus sign or a digit. -/
def numberParts : Scan NumberParts := do
  let negative := (← get).head? = some '-'
  if negative then skip
  let whole ← wholeDigits
  let fraction ← fractionDigits
  let exponent ← exponentDigits
  pure ⟨negative, whole, fraction, exponent⟩

/-- The value of a number without fraction and exponent. -/
def NumberParts.int? (p : NumberParts) : Option Int :=
  if p.fraction.isNone ∧ p.exponent.isNone then
    let n := Nat.ofDigitChars 10 p.whole 0
    some (if p.negative then -(n : Int) else n)
  else none

/-- The value of a number that fits a word of 64 bits, unsigned or, after a minus sign, signed. The
negative zero is no such number. -/
def NumberParts.word? (p : NumberParts) : Option Int :=
  p.int?.filter fun n =>
    if p.negative then decide (-0x8000000000000000 ≤ n ∧ n ≠ 0)
    else decide (n < 0x10000000000000000)

/-! ## Marks -/

/-- Whether another item of a list follows; takes the comma before it. -/
def hasItem (first : Bool) : Scan Bool := do
  match (← peek) with
  | none => throw .endOfList
  | some c =>
    if c = ']' then pure false
    else if first then pure true
    else if c = ',' then
      skip
      match (← peek) with
      | none => throw .endOfValue
      | some d => if d = ']' then throw .trailingComma else pure true
    else throw .expectedListEnd

/-- Whether another field of an object follows; takes the comma before it and the quote that opens
its name. -/
def hasKey (first : Bool) : Scan Bool := do
  match (← peek) with
  | none => throw .endOfObject
  | some c =>
    if c = '\x7d' then pure false
    else if first then
      if c = '"' then skip; pure true else throw .keyMustBeString
    else if c = ',' then
      skip
      match (← peek) with
      | none => throw .endOfValue
      | some d =>
        if d = '"' then skip; pure true
        else if d = '\x7d' then throw .trailingComma
        else throw .keyMustBeString
    else throw .expectedObjectEnd

def colon : Scan Unit := do
  match (← peek) with
  | none => throw .endOfObject
  | some c => if c = ':' then skip else throw .expectedColon

def endList : Scan Unit := do
  match (← peek) with
  | none => throw .endOfList
  | some c =>
    if c = ']' then skip
    else if c = ',' then
      skip
      if (← peek) = some ']' then throw .trailingComma else throw .trailingCharacters
    else throw .trailingCharacters

def endObject : Scan Unit := do
  match (← peek) with
  | none => throw .endOfObject
  | some c =>
    if c = '\x7d' then skip
    else if c = ',' then throw .trailingComma
    else throw .trailingCharacters

/-- Nothing but blanks may follow. -/
def endText : Scan Unit := do
  if (← peek).isSome then throw .trailingCharacters

/-- The items of a list, at most `fuel` of them. -/
def itemsUpTo {α : Type} (item : Scan α) : Nat → Bool → Scan (List α)
  | 0, _ => throw .endOfList
  | fuel + 1, first => do
    if ← hasItem first then
      let a ← item
      return a :: (← itemsUpTo item fuel false)
    else pure []

/-- The items of a list up to its closing bracket. Each takes a character at least, so there are no
more of them than characters. -/
def items {α : Type} (item : Scan α) : Scan (List α) := do
  itemsUpTo item ((← get).length + 1) true

/-- Goes through the fields of an object, at most `fuel` of them; `field` reads on from the colon.
-/
def foldFieldsUpTo {σ : Type} (field : σ → String → Scan σ) : Nat → Bool → σ → Scan σ
  | 0, _, _ => throw .endOfObject
  | fuel + 1, first, s => do
    if ← hasKey first then
      let name ← stringBody
      let s ← field s name
      foldFieldsUpTo field fuel false s
    else pure s

def foldFields {σ : Type} (field : σ → String → Scan σ) (first : Bool) (s : σ) : Scan σ := do
  foldFieldsUpTo field ((← get).length + 1) first s

end EventIndex.Json
