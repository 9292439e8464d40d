import EventIndex.Json.Scan

/-!
# Reading JSON values

Values of any form. Lists and objects nest 127 deep at most. An object whose first field has the
name `numberKey` is the number that this field spells, and one whose first field has the name
`textKey` is the value in the text that this field holds. Other objects have their fields sorted,
and of two fields of one name the last one counts.
-/

namespace EventIndex.Json

/-- The name under which a number may be spelled as an object. -/
def numberKey : String := "$serde_json::private::Number"

/-- The name under which the text of a value may stand in place of the value. -/
def textKey : String := "$serde_json::private::RawValue"

def maxDepth : Nat := 127

def numberOfText (s : String) : Except Error String :=
  match s.toList with
  | [] => .error .endOfValue
  | c :: cs =>
    if c = '-' ∨ c.isDigit then
      match numberParts (c :: cs) with
      | .ok (p, []) => .ok p.text
      | .ok _ => .error .invalidNumber
      | .error e => .error e
    else .error .invalidNumber

/-- The error for a value that stands where `expected` was asked for. -/
def mismatch {α : Type} (expected : String) : Scan α := do
  let fail (found : Found) : Scan α := throw (.invalidType found expected)
  match (← peek) with
  | none => throw .expectedValue
  | some c =>
    if c = 'n' then skip; ident ['u', 'l', 'l']; fail .null
    else if c = 't' then skip; ident ['r', 'u', 'e']; fail (.bool true)
    else if c = 'f' then skip; ident ['a', 'l', 's', 'e']; fail (.bool false)
    else if c = '-' ∨ c.isDigit then
      match (← numberParts).word? with
      | some n => fail (.integer n)
      | none => fail .number
    else if c = '"' then skip; fail (.string (← stringBody))
    else if c = '[' then fail .sequence
    else if c = '\x7b' then fail .map
    else throw .expectedValue

def stringFor (expected : String) : Scan String := do
  match (← peek) with
  | none => throw .endOfValue
  | some c => if c = '"' then skip; stringBody else mismatch expected

/-- A value with lists and objects at most `depth` deep; `embedded` reads a text that stands in
place of a value. -/
def valueWith (embedded : String → Except Error Json) (depth : Nat) : Scan Json := do
  match (← peek) with
  | none => throw .endOfValue
  | some c =>
    if c = 'n' then skip; ident ['u', 'l', 'l']; pure null
    else if c = 't' then skip; ident ['r', 'u', 'e']; pure (bool true)
    else if c = 'f' then skip; ident ['a', 'l', 's', 'e']; pure (bool false)
    else if c = '-' ∨ c.isDigit then return number (← numberParts).text
    else if c = '"' then skip; return string (← stringBody)
    else if c = '[' then
      match depth with
      | 0 => throw .recursionLimit
      | depth + 1 =>
        skip
        let vs ← items (valueWith embedded depth)
        endList
        pure (array vs)
    else if c = '\x7b' then
      match depth with
      | 0 => throw .recursionLimit
      | depth + 1 =>
        skip
        let add (fs : List (String × Json)) (name : String) : Scan (List (String × Json)) := do
          colon
          return insertField name (← valueWith embedded depth) fs
        let v ←
          if ← hasKey true then
            let name ← stringBody
            if name = numberKey then
              colon
              let spelled ← stringFor "string containing a number"
              match numberOfText spelled with
              | .ok text => pure (number text)
              | .error e => throw e
            else if name = textKey then
              colon
              match embedded (← stringFor "raw value") with
              | .ok v => pure v
              | .error e => throw e
            else
              let first ← add [] name
              object <$> foldFields add false first
          else pure (object [])
        endObject
        pure v
    else throw .expectedValue

/-- Reads a text that holds one value. Texts may stand in each other to fewer than `levels` levels;
each may nest as deep as a text that stands alone. -/
def ofTextWithin : (levels : Nat) → String → Except Error Json
  | 0, _ => .error .endOfValue
  | levels + 1, s =>
    (do let v ← valueWith (ofTextWithin levels) maxDepth; endText; pure v : Scan Json).run' s.toList

/-- A value with lists and objects at most `depth` deep. A text that stands in another one is
shorter, so there are no more levels than characters. -/
def value (depth : Nat) : Scan Json := do
  valueWith (ofTextWithin (← get).length) depth

def ofText (s : String) : Except Error Json :=
  ofTextWithin (s.length + 1) s

/-! ## Values that nobody asked for -/

def ignoredNumber : Scan Unit := fun cs =>
  match numberParts cs with
  | .ok (_, rest) => .ok ((), rest)
  | .error _ => .error .invalidNumber

/-- The characters of a string that nobody reads: only the form of its escapes is looked at. -/
def ignoredStringRest : List Char → Except Error (List Char)
  | [] => .error .endOfString
  | c :: cs =>
    if c = '"' then .ok cs
    else if c.toNat < 0x20 then .error .controlCharacter
    else if c ≠ '\\' then ignoredStringRest cs
    else match cs with
      | [] => .error .endOfString
      | 'u' :: cs =>
        match cs with
        | h₁ :: h₂ :: h₃ :: h₄ :: cs =>
          match hexValue4? h₁ h₂ h₃ h₄ with
          | none => .error (hexError [h₁, h₂, h₃, h₄])
          | some _ => ignoredStringRest cs
        | cs => .error (hexError cs)
      | e :: cs => if (namedEscape? e).isSome then ignoredStringRest cs else .error .invalidEscape

def ignoredString : Scan Unit := fun cs =>
  (ignoredStringRest cs).map fun rest => ((), rest)

def ignoredName : Scan Unit := do
  match (← peek) with
  | none => throw .endOfObject
  | some c =>
    if c = '"' then skip; ignoredString; colon else throw .keyMustBeString

/-- Closes brackets until an item follows. `frames` holds the open brackets, the innermost first;
without any the value is over. Gives the brackets that are still open. -/
def closeFrames : List Char → Bool → Scan (List Char)
  | [], _ => pure []
  | frame :: frames, comma => do
    let close := if frame = '[' then ']' else '\x7d'
    match (← peek) with
    | none => throw (if frame = '[' then .endOfList else .endOfObject)
    | some c =>
      if comma ∧ c = ',' then skip; pure (frame :: frames)
      else if c = close then skip; closeFrames frames true
      else if comma then throw (if frame = '[' then .expectedListEnd else .expectedObjectEnd)
      else pure (frame :: frames)

def ignoreWithin : Nat → List Char → Scan Unit
  | 0, _ => throw .endOfValue
  | fuel + 1, frames => do
    match (← peek) with
    | none => throw .endOfValue
    | some c =>
      let frames ←
        if c = '[' ∨ c = '\x7b' then
          skip
          closeFrames (c :: frames) false
        else
          if c = 'n' then skip; ident ['u', 'l', 'l']
          else if c = 't' then skip; ident ['r', 'u', 'e']
          else if c = 'f' then skip; ident ['a', 'l', 's', 'e']
          else if c = '-' ∨ c.isDigit then ignoredNumber
          else if c = '"' then skip; ignoredString
          else throw .expectedValue
          closeFrames frames true
      match frames with
      | [] => pure ()
      | frame :: _ =>
        if frame = '\x7b' then ignoredName
        ignoreWithin fuel frames

/-- Skips a value. Each step takes a character at least. -/
def ignoreValue : Scan Unit := do
  ignoreWithin ((← get).length + 1) []

end EventIndex.Json
