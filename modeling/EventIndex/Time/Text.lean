import EventIndex.Text.Blank
import EventIndex.Time.Timestamp

/-!
# Instants in text

The form of RFC 3339. It is written in universal time with as many of three, six or nine digits
after the point as are needed. It is read leniently: blanks may stand before each number and before
the offset, the year may have a sign and then any number of digits, and the offset may be a name.
-/

namespace EventIndex.Time

inductive Error where
  | invalid
  | outOfRange
  | tooShort
  | trailing
  | noSuchTime
deriving DecidableEq, Repr

def Error.message : Error → String
  | invalid => "input contains invalid characters"
  | outOfRange => "input is out of range"
  | tooShort => "premature end of input"
  | trailing => "trailing input"
  | noSuchTime => "no possible date and time matching input"

/-- The text of `n` in at least `width` digits. -/
def padded (width n : Nat) : List Char :=
  let digits := Nat.toDigits 10 n
  List.replicate (width - digits.length) '0' ++ digits

/-- Years of four digits stand alone; other years have a sign. -/
def yearText (year : Int) : List Char :=
  if 0 ≤ year ∧ year ≤ 9999 then padded 4 year.toNat
  else (if year < 0 then '-' else '+') :: padded 4 year.natAbs

/-- The digits after the point, none for a whole second. -/
def fractionText (nanos : Nat) : List Char :=
  if nanos = 0 then []
  else if nanos % 1000000 = 0 then '.' :: padded 3 (nanos / 1000000)
  else if nanos % 1000 = 0 then '.' :: padded 6 (nanos / 1000)
  else '.' :: padded 9 nanos

/-- Date and time up to the second. -/
def secondsText (t : Timestamp) : List Char :=
  let leap := t.nanos / 1000000000
  yearText t.date.year ++ '-' :: padded 2 t.date.month ++ '-' :: padded 2 t.date.day ++
    'T' :: padded 2 (t.second / 3600) ++ ':' :: padded 2 (t.second / 60 % 60) ++
    ':' :: padded 2 (t.second % 60 + leap)

abbrev Scan := StateT (List Char) (Except Error)

/-- A number of at least one and at most `limit` digits. -/
def number (limit : Option Nat) : Scan Nat := fun cs =>
  match cs with
  | [] => .error .tooShort
  | c :: _ =>
    if c.isDigit then
      let all := cs.takeWhile Char.isDigit
      let digits := match limit with
        | some n => all.take n
        | none => all
      .ok (Nat.ofDigitChars 10 digits 0, cs.drop digits.length)
    else .error .invalid

def skipBlanks : Scan Unit :=
  modify Text.trimStart

/-- A number of one or two digits that lies between `least` and `most`. -/
def field (least most : Nat) : Scan Nat := do
  skipBlanks
  let n ← number (some 2)
  if least ≤ n ∧ n ≤ most then pure n else throw .outOfRange

def year : Scan Int := do
  skipBlanks
  let y : Int ← match (← get) with
    | '-' :: cs => do set cs; pure (-Int.ofNat (← number none))
    | '+' :: cs => do set cs; pure (Int.ofNat (← number none))
    | _ => Int.ofNat <$> number (some 4)
  if -0x80000000 ≤ y ∧ y < 0x80000000 then pure y else throw .outOfRange

/-- One of the characters that `accept` holds of. -/
def literal (accept : Char → Bool) : Scan Unit := fun cs =>
  match cs with
  | [] => .error .tooShort
  | c :: rest => if accept c then .ok ((), rest) else .error .invalid

/-- The nanoseconds after a point. Digits after the ninth are skipped. -/
def fraction : Scan Nat := do
  match (← get) with
  | '.' :: cs =>
    set cs
    let n ← number (some 9)
    let rest ← get
    set (rest.dropWhile Char.isDigit)
    pure (n * Nat.pow 10 (9 - (cs.length - rest.length)))
  | _ => pure 0

/-- Two digits. What is missing is counted in bytes. -/
def twoDigits : Scan (Nat × Nat) := fun cs =>
  match cs with
  | a :: b :: rest =>
    if a.isDigit ∧ b.isDigit then .ok ((a.toNat - 48, b.toNat - 48), rest) else .error .invalid
  | [a] => if a.utf8Size < 2 then .error .tooShort else .error .invalid
  | [] => .error .tooShort

/-- Hours and minutes after a sign, in seconds. Colons and blanks may stand between them. -/
def hoursAndMinutes : Scan Nat := do
  let (h₁, h₂) ← twoDigits
  modify (·.dropWhile fun c => c = ':' || Text.isBlank c)
  let (m₁, m₂) ← twoDigits
  if 6 ≤ m₁ then throw .outOfRange
  pure ((h₁ * 10 + h₂) * 3600 + (m₁ * 10 + m₂) * 60)

/-- The number of seconds by which the local clock is ahead. -/
def offset : Scan Int := do
  match (← get) with
  | [] => throw .tooShort
  | c :: rest =>
    if c = 'Z' ∨ c = 'z' then set rest; pure 0
    else if c = '+' then set rest; pure (Int.ofNat (← hoursAndMinutes))
    else if c = '-' ∨ c = '\u2212' then set rest; pure (-Int.ofNat (← hoursAndMinutes))
    else throw .invalid

/-- The offset at the end of a text, or the name of universal time. -/
def zone : Scan Int := do
  let cs ← get
  if (cs.take 3).map Char.toUpper = ['U', 'T', 'C'] then set (cs.drop 3); pure 0 else offset

/-- Date, time and offset, and nothing but blanks after them. -/
def dateTime : Scan Timestamp := do
  let y ← year
  skipBlanks
  literal (· = '-')
  let month ← field 1 12
  skipBlanks
  literal (· = '-')
  let day ← field 1 31
  literal fun c => c = 't' || c = 'T' || c = ' '
  let hour ← field 0 23
  skipBlanks
  literal (· = ':')
  let minute ← field 0 59
  skipBlanks
  literal (· = ':')
  let second ← field 0 60
  let nanos ← fraction
  skipBlanks
  let ahead ← zone
  skipBlanks
  unless (← get).isEmpty do throw .trailing
  match Date.ofFields? y month day with
  | none => throw .outOfRange
  | some date =>
    if 86400 ≤ ahead.natAbs then throw .outOfRange
    let leap := second / 60
    let total := hour * 3600 + minute * 60 + (second - leap)
    match Timestamp.ofLocal? date total (nanos + leap * 1000000000) ahead with
    | some t => pure t
    | none => throw .noSuchTime

end EventIndex.Time

namespace EventIndex.Timestamp

open Time

def text (t : Timestamp) : String :=
  String.ofList (secondsText t ++ fractionText (t.nanos % 1000000000) ++ ['Z'])

/-- The text with exactly six digits after the point. -/
def microsText (t : Timestamp) : String :=
  let t := t.toMicros
  String.ofList (secondsText t ++ '.' :: padded 6 (t.nanos / 1000) ++ ['Z'])

def ofText (s : String) : Except Time.Error Timestamp :=
  (dateTime.run s.toList).map Prod.fst

end EventIndex.Timestamp
