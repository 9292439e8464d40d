import EventIndex.Text.Quoted

/-!
# Hexadecimal text

Bytes written as pairs of hexadecimal digits, the high digit first. Digits of both cases are
read, lower case is written.
-/

namespace EventIndex.Hex

inductive Error where
  | oddLength
  | wrongLength
  | badCharacter (c : Char) (index : Nat)
deriving DecidableEq, Repr

def Error.message : Error → String
  | oddLength => "Odd number of digits"
  | wrongLength => "Invalid string length"
  | badCharacter c index => s!"Invalid character {Text.quoteChar c} at position {index}"

def digit (n : Nat) : Char :=
  Nat.digitChar n

/-- The value of a digit that is given by its byte. -/
def digitValue? (b : UInt8) : Option UInt8 :=
  if 48 ≤ b ∧ b ≤ 57 then some (b - 48)
  else if 97 ≤ b ∧ b ≤ 102 then some (b - 87)
  else if 65 ≤ b ∧ b ≤ 70 then some (b - 55)
  else none

def encodeChars : List UInt8 → List Char
  | [] => []
  | b :: bs => digit (b.toNat / 16) :: digit (b.toNat % 16) :: encodeChars bs

def encode (bs : List UInt8) : String :=
  String.ofList (encodeChars bs)

/-- Reads the bytes of a text as pairs of digits; `index` is the place of the first of them, and a
byte that is no digit is shown as the character with its number. -/
def decodePairs (index : Nat) : List UInt8 → Except Error (List UInt8)
  | hi :: lo :: rest =>
    match digitValue? hi, digitValue? lo with
    | none, _ => .error (.badCharacter (Char.ofNat hi.toNat) index)
    | _, none => .error (.badCharacter (Char.ofNat lo.toNat) (index + 1))
    | some h, some l => (decodePairs (index + 2) rest).map ((h * 16 + l) :: ·)
  | _ => .ok []

/-- Reads exactly `length` bytes. The number of digits is looked at before the digits. -/
def decode (length : Nat) (s : String) : Except Error (List UInt8) :=
  let bytes := s.toList.flatMap String.utf8EncodeChar
  if bytes.length % 2 = 1 then .error .oddLength
  else if bytes.length ≠ 2 * length then .error .wrongLength
  else decodePairs 0 bytes

theorem length_of_decodePairs {index : Nat} {bs out : List UInt8}
    (h : decodePairs index bs = .ok out) (he : bs.length % 2 = 0) :
    2 * out.length = bs.length := by
  fun_induction decodePairs index bs generalizing out with
  | case1 | case2 => simp at h
  | case3 index hi lo rest _ _ _ _ ih =>
    simp only [List.length_cons] at he
    cases hr : decodePairs (index + 2) rest with
    | error e => rw [hr] at h; cases h
    | ok r =>
      rw [hr] at h
      cases h
      have := ih hr (by omega)
      simp only [List.length_cons]
      omega
  | case4 bs _ hb =>
    cases h
    match bs, hb, he with
    | [], _, _ => rfl
    | a :: b :: t, hb, _ => exact absurd rfl (hb a b t)

theorem length_of_decode {n : Nat} {s : String} {out : List UInt8} (h : decode n s = .ok out) :
    out.length = n := by
  simp only [decode] at h
  split at h
  · cases h
  split at h
  · cases h
  · have := length_of_decodePairs h (by omega)
    omega

end EventIndex.Hex
