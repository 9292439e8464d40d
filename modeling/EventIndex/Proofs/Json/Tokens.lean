import EventIndex.Json.Parser
import EventIndex.Json.Printer
import EventIndex.Proofs.Text.Scanning

/-! # Tokens

The tokens that the printer writes are read back as they were: strings with their escapes, and
numbers part by part. A number ends where no digit follows, so it matters what comes after it. -/

namespace EventIndex.Json

open Text

theorem run_peek (cs : List Char) :
    peek.run cs = .ok ((cs.dropWhile isBlank).head?, cs.dropWhile isBlank) := rfl

theorem run_peek_cons {c : Char} (h : isBlank c = false) (cs : List Char) :
    peek.run (c :: cs) = .ok (some c, c :: cs) := by
  simp [run_peek, h]

theorem run_skip (c : Char) (cs : List Char) : skip.run (c :: cs) = .ok ((), cs) := rfl

theorem run_ident (word rest : List Char) : (ident word).run (word ++ rest) = .ok ((), rest) := by
  induction word with
  | nil => rfl
  | cons c word ih =>
    rw [ident, List.cons_append]
    rw [run_bind_of (s := get) (a := c :: (word ++ rest)) rfl]
    dsimp only
    rw [run_bind_of (s := set (word ++ rest)) (a := ()) rfl]
    simp [ih]

theorem hexValue?_digitChar : ∀ d < 16, hexValue? (Nat.digitChar d) = some d := by
  decide

private theorem stringRest_escapeChar (c : Char) (cs : List Char) :
    stringRest (escapeChar c ++ cs) = (stringRest cs).map (consChar c) := by
  unfold escapeChar
  split
  · simp [stringRest, namedEscape?]
  · simp [stringRest, namedEscape?]
  · simp [stringRest, namedEscape?]
  · simp [stringRest, namedEscape?]
  · simp [stringRest, namedEscape?]
  · simp [stringRest, namedEscape?]
  · simp [stringRest, namedEscape?]
  · rename_i h1 h2 h3 h4 h5 h6 h7
    split
    · rename_i h
      have hhigh : hexValue? (Nat.digitChar (c.toNat / 16)) = some (c.toNat / 16) :=
        hexValue?_digitChar _ (by omega)
      have hlow := hexValue?_digitChar (c.toNat % 16) (by omega)
      have hzero : hexValue? '0' = some 0 := by decide
      have hvalue : hexValue4? '0' '0' (Nat.digitChar (c.toNat / 16))
          (Nat.digitChar (c.toNat % 16)) = some c.toNat := by
        simp [hexValue4?, hhigh, hlow, hzero]
        omega
      have h1 : ¬ (0xDC00 ≤ c.toNat ∧ c.toNat ≤ 0xDFFF) := by omega
      have h2 : c.toNat < 0xD800 ∨ 0xDBFF < c.toNat := by omega
      simp only [List.cons_append, List.nil_append]
      rw [stringRest.eq_def]
      simp [hvalue, h1, h2]
    · rename_i h
      rw [List.singleton_append, stringRest.eq_def]
      have hq : c ≠ '"' := h1
      have hb : c ≠ '\\' := h2
      simp [hq, hb, h]

theorem stringRest_escaped (s rest : List Char) :
    stringRest (s.flatMap escapeChar ++ '"' :: rest) = .ok (s, rest) := by
  induction s with
  | nil => rw [List.flatMap_nil, List.nil_append, stringRest.eq_def]; simp
  | cons c s ih =>
    rw [List.flatMap_cons, List.append_assoc, stringRest_escapeChar, ih]
    rfl

theorem run_stringBody (s : String) (rest : List Char) :
    stringBody.run (s.toList.flatMap escapeChar ++ '"' :: rest) = .ok (s, rest) := by
  have h : stringBody.run (s.toList.flatMap escapeChar ++ '"' :: rest) =
      (stringRest (s.toList.flatMap escapeChar ++ '"' :: rest)).map
        fun x => (String.ofList x.1, x.2) := rfl
  rw [h, stringRest_escaped]
  simp [Except.map]

theorem quoted_append (s : String) (rest : List Char) :
    quoted s ++ rest = '"' :: (s.toList.flatMap escapeChar ++ '"' :: rest) := by
  simp [quoted]

theorem run_stringFor (expected s : String) (rest : List Char) :
    (stringFor expected).run (quoted s ++ rest) = .ok (s, rest) := by
  rw [quoted_append, stringFor, run_bind_of (run_peek_cons (by decide) _)]
  simp only [if_true]
  rw [run_bind_of (run_skip _ _), run_stringBody]

/-! ## Numbers -/

/-- What may follow a value: nothing, or a mark of the list or object that it stands in. -/
def Ends : List Char → Prop
  | [] => True
  | c :: _ => c = ',' ∨ c = ']' ∨ c = '\x7d'

/-- The parts of a number as they can be read: each has digits, and no zero stands before other
digits of the whole. -/
structure NumberParts.Regular (p : NumberParts) : Prop where
  whole : IsDigits p.whole
  leading : ∀ c cs, p.whole ≠ '0' :: c :: cs
  fraction : ∀ ds ∈ p.fraction, IsDigits ds
  exponent : ∀ x ∈ p.exponent, IsDigits x.2

theorem Ends.noDigit {rest : List Char} (h : Ends rest) : NoDigit rest := by
  cases rest with
  | nil => trivial
  | cons c rest => rcases h with rfl | rfl | rfl <;> rfl

theorem run_digits {ds rest : List Char} (hds : IsDigits ds) (hrest : NoDigit rest) :
    digits.run (ds ++ rest) = .ok (ds, rest) := by
  have htake := takeWhile_isDigit hds.2 hrest
  have hdrop : (ds ++ rest).drop ds.length = rest := by simp
  rw [digits, run_bind_of (s := get) (a := ds ++ rest) rfl, htake]
  cases ds with
  | nil => exact absurd rfl hds.1
  | cons d ds =>
    dsimp only
    rw [hdrop]
    rfl

theorem run_wholeDigits {ds rest : List Char} (hds : IsDigits ds)
    (hleading : ∀ c cs, ds ≠ '0' :: c :: cs) (hrest : NoDigit rest) :
    wholeDigits.run (ds ++ rest) = .ok (ds, rest) := by
  rw [wholeDigits, run_bind_of (run_digits hds hrest)]
  split
  · exact absurd rfl (hleading _ _)
  · rfl

namespace NumberParts

def fractionChars (p : NumberParts) : List Char :=
  p.fraction.elim [] ('.' :: ·)

def exponentChars (p : NumberParts) : List Char :=
  p.exponent.elim [] fun (negative, digits) => 'e' :: (if negative then '-' else '+') :: digits

theorem toList_text (p : NumberParts) : p.text.toList =
    (if p.negative then ['-'] else []) ++ (p.whole ++ (p.fractionChars ++ p.exponentChars)) := by
  obtain ⟨negative, whole, fraction, exponent⟩ := p
  cases fraction <;> cases exponent <;> simp [text, fractionChars, exponentChars]

end NumberParts

variable {p : NumberParts} {rest : List Char}

theorem run_exponentDigits (hp : p.Regular) (hrest : Ends rest) :
    exponentDigits.run (p.exponentChars ++ rest) = .ok (p.exponent, rest) := by
  rw [exponentDigits, run_bind_of (s := get) (a := p.exponentChars ++ rest) rfl]
  cases h : p.exponent with
  | none =>
    simp only [NumberParts.exponentChars, h, Option.elim_none, List.nil_append]
    cases rest with
    | nil => rfl
    | cons c rest => rcases hrest with rfl | rfl | rfl <;> rfl
  | some x =>
    obtain ⟨negative, ds⟩ := x
    have hds := run_digits (hp.exponent _ h) hrest.noDigit
    simp only [NumberParts.exponentChars, h, Option.elim_some, List.cons_append, true_or, if_true]
    cases negative
    · simp only [Bool.false_eq_true, if_false]
      rw [run_bind_of (s := set (ds ++ rest)) (a := ()) rfl, run_bind_of hds]
      rfl
    · simp only [if_true]
      rw [run_bind_of (s := set (ds ++ rest)) (a := ()) rfl, run_bind_of hds]
      rfl

theorem noDigit_exponentChars (p : NumberParts) (hrest : Ends rest) :
    NoDigit (p.exponentChars ++ rest) := by
  rw [NumberParts.exponentChars]
  cases p.exponent with
  | none => exact hrest.noDigit
  | some x => rfl

theorem run_fractionDigits (hp : p.Regular) (hrest : Ends rest) :
    fractionDigits.run (p.fractionChars ++ (p.exponentChars ++ rest)) =
      .ok (p.fraction, p.exponentChars ++ rest) := by
  rw [fractionDigits, run_bind_of (s := get)
    (a := p.fractionChars ++ (p.exponentChars ++ rest)) rfl]
  cases h : p.fraction with
  | none =>
    simp only [NumberParts.fractionChars, h, Option.elim_none, List.nil_append]
    have hpoint (cs : List Char) : p.exponentChars ++ rest ≠ '.' :: cs := by
      rw [NumberParts.exponentChars]
      cases p.exponent with
      | none =>
        rintro rfl
        rcases hrest with h | h | h <;> cases h
      | some x => simp
    split
    · exact absurd ‹_› (hpoint _)
    · rfl
  | some ds =>
    simp only [NumberParts.fractionChars, h, Option.elim_some, List.cons_append]
    rw [run_bind_of (s := set (ds ++ (p.exponentChars ++ rest))) (a := ()) rfl]
    exact run_map_of (run_digits (hp.fraction ds h) (noDigit_exponentChars p hrest))

theorem noDigit_fractionChars (p : NumberParts) (hrest : Ends rest) :
    NoDigit (p.fractionChars ++ (p.exponentChars ++ rest)) := by
  rw [NumberParts.fractionChars]
  cases p.fraction with
  | none => exact noDigit_exponentChars p hrest
  | some ds => rfl

/-- The whole begins with a digit, so a sign is not taken for one of its characters. -/
theorem NumberParts.Regular.head?_whole (hp : p.Regular) (cs : List Char) :
    ∃ c, (p.whole ++ cs).head? = some c ∧ c.isDigit := by
  obtain ⟨hne, hdigit⟩ := hp.whole
  cases h : p.whole with
  | nil => exact absurd h hne
  | cons c ds => exact ⟨c, rfl, hdigit c (h ▸ List.mem_cons_self)⟩

theorem run_numberParts (hp : p.Regular) (hrest : Ends rest) :
    numberParts.run (p.text.toList ++ rest) = .ok (p, rest) := by
  let tail := p.whole ++ (p.fractionChars ++ (p.exponentChars ++ rest))
  have hunsigned (negative : Bool) :
      (do
        let whole ← wholeDigits
        let fraction ← fractionDigits
        let exponent ← exponentDigits
        pure ⟨negative, whole, fraction, exponent⟩ : Scan NumberParts).run tail =
      .ok (⟨negative, p.whole, p.fraction, p.exponent⟩, rest) := by
    rw [run_bind_of (run_wholeDigits hp.whole hp.leading (noDigit_fractionChars p hrest)),
      run_bind_of (run_fractionDigits hp hrest),
      run_bind_of (run_exponentDigits hp hrest)]
    rfl
  have htext : p.text.toList ++ rest = (if p.negative then ['-'] else []) ++ tail := by
    simp [p.toList_text, tail]
  rw [htext, numberParts, run_bind_of (s := get) rfl]
  cases h : p.negative with
  | true =>
    simp only [if_true, List.singleton_append, List.head?_cons, decide_true]
    rw [run_bind_of (run_skip _ _), hunsigned, ← h]
  | false =>
    obtain ⟨c, hhead, hc⟩ := hp.head?_whole (p.fractionChars ++ (p.exponentChars ++ rest))
    have hsign : ¬ tail.head? = some '-' := by
      rintro hminus
      obtain rfl := Option.some.inj (hhead.symm.trans hminus)
      cases hc
    simp only [Bool.false_eq_true, if_false, List.nil_append, hsign, decide_false]
    rw [hunsigned, ← h]

end EventIndex.Json
