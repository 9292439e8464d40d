/-!
# Blank characters

The characters with the Unicode property `White_Space`, and the texts that remain when they are
taken off an end.
-/

namespace EventIndex.Text

/-- Holds for the characters with the property `White_Space`. -/
def isBlank (c : Char) : Bool :=
  let n := c.toNat
  (0x09 ≤ n && n ≤ 0x0D) || n == 0x20 || n == 0x85 || n == 0xA0 || n == 0x1680 ||
    (0x2000 ≤ n && n ≤ 0x200A) || n == 0x2028 || n == 0x2029 || n == 0x202F || n == 0x205F ||
    n == 0x3000

def trimStart (cs : List Char) : List Char :=
  cs.dropWhile isBlank

def trimEnd (cs : List Char) : List Char :=
  (cs.reverse.dropWhile isBlank).reverse

def trim (s : String) : String :=
  String.ofList (trimEnd (trimStart s.toList))

/-- Holds for a text of blanks alone, the empty text included. -/
def isBlankText (s : String) : Bool :=
  s.toList.all isBlank

end EventIndex.Text
