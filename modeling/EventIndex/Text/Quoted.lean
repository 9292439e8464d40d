import EventIndex.Text.Unprintable

/-!
# Quoted text

How messages show a text or a character that came from outside: between quotes, with a backslash
before the quote in use and before a backslash, and with every character that has no printed form
written by name or by number.
-/

namespace EventIndex.Text

/-- The spelling of `c` between quotes of the kind `q`. -/
def escape (q c : Char) : List Char :=
  match c with
  | '\x00' => ['\\', '0']
  | '\t' => ['\\', 't']
  | '\r' => ['\\', 'r']
  | '\n' => ['\\', 'n']
  | '\\' => ['\\', '\\']
  | c =>
    if c = q then ['\\', c]
    else if isUnprintable c then
      ['\\', 'u', '\x7b'] ++ Nat.toDigits 16 c.toNat ++ ['\x7d']
    else [c]

def quote (s : String) : String :=
  String.ofList ('"' :: s.toList.flatMap (escape '"') ++ ['"'])

/-- The character between single quotes. -/
def quoteChar (c : Char) : String :=
  String.ofList ('\'' :: escape '\'' c ++ ['\''])

end EventIndex.Text
