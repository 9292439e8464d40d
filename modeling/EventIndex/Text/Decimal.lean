/-!
# Decimal integers

Reading digits and signed integers, in the three spellings that the indexer meets: bare digits,
digits after an optional minus sign, and digits after an optional sign of either kind.
-/

namespace EventIndex.Text

/-- The value of a run of one or more digits. -/
def natOfDigits? (cs : List Char) : Option Nat :=
  if cs ≠ [] ∧ cs.all Char.isDigit then some (Nat.ofDigitChars 10 cs 0) else none

/-- Reads digits after an optional minus sign. -/
def intOfDigits? : List Char → Option Int
  | '-' :: cs => (natOfDigits? cs).map (-Int.ofNat ·)
  | cs => (natOfDigits? cs).map Int.ofNat

/-- Reads digits after an optional sign; a minus sign before nothing but digits is kept. -/
def intOfSigned? : List Char → Option Int
  | '+' :: cs => (natOfDigits? cs).map Int.ofNat
  | cs => intOfDigits? cs

theorem natOfDigits?_toDigits (n : Nat) : natOfDigits? (Nat.toDigits 10 n) = some n := by
  have h : Nat.toDigits 10 n ≠ [] := by
    rw [Nat.toDigits_eq_if (by decide)]; split <;> simp
  have hd : (Nat.toDigits 10 n).all Char.isDigit = true :=
    List.all_eq_true.2 fun _ hc => Nat.isDigit_of_mem_toDigits (by decide) (by decide) hc
  simp [natOfDigits?, h, hd, Nat.ofDigitChars_toDigits]

end EventIndex.Text
