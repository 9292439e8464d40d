import EventIndex.Proofs.Json.Tokens
import EventIndex.Proofs.Text.Integer

/-! # Spellings of numbers and strings

The printer writes a number or a string in one way, but a text may spell it in others: exponents
with a large letter or without a sign, characters escaped by name or by number. All of them are
read. -/

namespace EventIndex.Json

open Text

/-! ## Numbers -/

inductive SpellsFraction : List Char → Option (List Char) → Prop
  | none : SpellsFraction [] none
  | some {ds : List Char} (h : IsDigits ds) : SpellsFraction ('.' :: ds) (some ds)

inductive SpellsExponent : List Char → Option (Bool × List Char) → Prop
  | none : SpellsExponent [] none
  | bare {c : Char} {ds : List Char} (hc : c = 'e' ∨ c = 'E') (h : IsDigits ds) :
    SpellsExponent (c :: ds) (some (false, ds))
  | positive {c : Char} {ds : List Char} (hc : c = 'e' ∨ c = 'E') (h : IsDigits ds) :
    SpellsExponent (c :: '+' :: ds) (some (false, ds))
  | negative {c : Char} {ds : List Char} (hc : c = 'e' ∨ c = 'E') (h : IsDigits ds) :
    SpellsExponent (c :: '-' :: ds) (some (true, ds))

/-- The characters are a number of these parts: perhaps a minus sign, digits of which the first is
no zero unless it stands alone, and perhaps a fraction and an exponent. -/
inductive SpellsNumber : List Char → NumberParts → Prop
  | unsigned {whole fraction exponent : List Char} {f : Option (List Char)}
    {e : Option (Bool × List Char)} (hwhole : IsDigits whole)
    (hleading : ∀ c cs, whole ≠ '0' :: c :: cs) (hfraction : SpellsFraction fraction f)
    (hexponent : SpellsExponent exponent e) :
    SpellsNumber (whole ++ (fraction ++ exponent)) ⟨false, whole, f, e⟩
  | negative {cs whole : List Char} {f : Option (List Char)} {e : Option (Bool × List Char)}
    (h : SpellsNumber cs ⟨false, whole, f, e⟩) : SpellsNumber ('-' :: cs) ⟨true, whole, f, e⟩

/-- No number goes on with these characters. -/
def StopsNumber : List Char → Prop
  | [] => True
  | c :: _ => c.isDigit = false ∧ c ≠ '.' ∧ c ≠ 'e' ∧ c ≠ 'E'

theorem isDigit_of_exponent {c : Char} (hc : c = 'e' ∨ c = 'E') : c.isDigit = false := by
  rcases hc with rfl | rfl <;> rfl

theorem StopsNumber.noDigit {rest : List Char} (h : StopsNumber rest) : NoDigit rest := by
  cases rest with
  | nil => trivial
  | cons c rest => exact h.1

section

variable {cs rest : List Char}

theorem SpellsFraction.isDigits {f : Option (List Char)} (h : SpellsFraction cs f) :
    ∀ ds ∈ f, IsDigits ds := by
  cases h with
  | none => simp
  | some hds => simpa using hds

theorem SpellsExponent.isDigits {e : Option (Bool × List Char)} (h : SpellsExponent cs e) :
    ∀ x ∈ e, IsDigits x.2 := by
  cases h with
  | none => simp
  | bare hc hds | positive hc hds | negative hc hds => simpa using hds

theorem SpellsExponent.noDigit {e : Option (Bool × List Char)} (h : SpellsExponent cs e)
    (hrest : StopsNumber rest) : NoDigit (cs ++ rest) := by
  cases h with
  | none => exact hrest.noDigit
  | bare hc hds | positive hc hds | negative hc hds => exact isDigit_of_exponent hc

theorem SpellsFraction.noDigit {f : Option (List Char)} {cs' : List Char}
    (h : SpellsFraction cs f) (hrest : NoDigit cs') : NoDigit (cs ++ cs') := by
  cases h with
  | none => exact hrest
  | some hds => rfl

theorem SpellsNumber.regular {p : NumberParts} (h : SpellsNumber cs p) : p.Regular := by
  induction h with
  | unsigned hwhole hleading hfraction hexponent =>
    exact ⟨hwhole, hleading, hfraction.isDigits, hexponent.isDigits⟩
  | negative h ih => exact ⟨ih.whole, ih.leading, ih.fraction, ih.exponent⟩

theorem SpellsExponent.run {e : Option (Bool × List Char)} (h : SpellsExponent cs e)
    (hrest : StopsNumber rest) : exponentDigits.run (cs ++ rest) = .ok (e, rest) := by
  rw [exponentDigits, run_bind_of (s := get) (a := cs ++ rest) rfl]
  cases h with
  | none =>
    cases rest with
    | nil => rfl
    | cons c rest =>
      simp only [List.nil_append, hrest.2.2.1, hrest.2.2.2, or_self, if_false]
      rfl
  | @bare c ds hc hds =>
    have hread := run_digits hds hrest.noDigit
    have hsign (d : Char) (hd : d.isDigit = false) (cs : List Char) : ds ++ rest ≠ d :: cs := by
      obtain ⟨c, hhead, hc⟩ := hds.head?_append rest
      intro heq
      rw [heq] at hhead
      obtain rfl : d = c := Option.some.inj hhead
      cases hd.symm.trans hc
    simp only [List.cons_append, hc, if_true]
    split
    · exact absurd ‹_› (hsign '-' rfl _)
    · exact absurd ‹_› (hsign '+' rfl _)
    · rw [run_bind_of (s := set (ds ++ rest)) (a := ()) rfl, run_bind_of hread]
      rfl
  | @positive c ds hc hds | @negative c ds hc hds =>
    have hread := run_digits hds hrest.noDigit
    simp only [List.cons_append, hc, if_true]
    rw [run_bind_of (s := set (ds ++ rest)) (a := ()) rfl, run_bind_of hread]
    rfl

theorem SpellsFraction.run {f : Option (List Char)} {cs' : List Char} (h : SpellsFraction cs f)
    (hrest : NoDigit cs') (hpoint : ∀ cs, cs' ≠ '.' :: cs) :
    fractionDigits.run (cs ++ cs') = .ok (f, cs') := by
  rw [fractionDigits, run_bind_of (s := get) (a := cs ++ cs') rfl]
  cases h with
  | none =>
    rw [List.nil_append]
    split
    · exact absurd rfl (hpoint _)
    · rfl
  | @some ds hds =>
    simp only [List.cons_append]
    rw [run_bind_of (s := set (ds ++ cs')) (a := ()) rfl]
    exact run_map_of (run_digits hds hrest)

theorem SpellsNumber.run {p : NumberParts} (h : SpellsNumber cs p) (hrest : StopsNumber rest) :
    numberParts.run (cs ++ rest) = .ok (p, rest) := by
  -- The parts after the sign are read alike with and without one.
  have hunsigned (negative : Bool) {cs whole : List Char} {f : Option (List Char)}
      {e : Option (Bool × List Char)} (h : SpellsNumber cs ⟨false, whole, f, e⟩) :
      (do
        let whole ← wholeDigits
        let fraction ← fractionDigits
        let exponent ← exponentDigits
        pure ⟨negative, whole, fraction, exponent⟩ : Scan NumberParts).run (cs ++ rest) =
      .ok (⟨negative, whole, f, e⟩, rest) := by
    cases h with
    | @unsigned _ fraction exponent _ _ hwhole hleading hfraction hexponent =>
      have hnoDigit := hexponent.noDigit hrest
      have hpoint (cs : List Char) : exponent ++ rest ≠ '.' :: cs := by
        rintro heq
        cases hexponent with
        | none =>
          rw [List.nil_append] at heq
          subst heq
          exact hrest.2.1 rfl
        | bare hc _ | positive hc _ | negative hc _ =>
          obtain ⟨rfl, -⟩ := List.cons.inj heq
          simp at hc
      rw [List.append_assoc, List.append_assoc,
        run_bind_of (run_wholeDigits hwhole hleading (hfraction.noDigit hnoDigit)),
        run_bind_of (hfraction.run hnoDigit hpoint), run_bind_of (hexponent.run hrest)]
      rfl
  rw [numberParts, run_bind_of (s := get) rfl]
  cases h with
  | negative h =>
    simp only [List.cons_append, List.head?_cons, decide_true, if_true]
    rw [run_bind_of (run_skip _ _), hunsigned true h]
  | @unsigned whole fraction exponent _ _ hwhole hleading hfraction hexponent =>
    have hsign : ¬ (whole ++ (fraction ++ exponent) ++ rest).head? = some '-' := by
      obtain ⟨c, hhead, hc⟩ := hwhole.head?_append (fraction ++ exponent ++ rest)
      rw [List.append_assoc, hhead]
      rintro ⟨⟩
      cases hc
    simp only [hsign, decide_false, if_false]
    rw [hunsigned false (.unsigned hwhole hleading hfraction hexponent)]

theorem NumberParts.Regular.spellsNumber {p : NumberParts} (hp : p.Regular) :
    SpellsNumber p.text.toList p := by
  obtain ⟨negative, whole, f, e⟩ := p
  have hfraction : SpellsFraction (NumberParts.fractionChars ⟨negative, whole, f, e⟩) f := by
    cases f with
    | none => exact .none
    | some ds => exact .some (hp.fraction ds rfl)
  have hexponent : SpellsExponent (NumberParts.exponentChars ⟨negative, whole, f, e⟩) e := by
    cases e with
    | none => exact .none
    | some x =>
      obtain ⟨negative, ds⟩ := x
      cases negative with
      | false => exact .positive (.inl rfl) (hp.exponent _ rfl)
      | true => exact .negative (.inl rfl) (hp.exponent _ rfl)
  have hunsigned := SpellsNumber.unsigned hp.whole hp.leading hfraction hexponent
  rw [NumberParts.toList_text]
  cases negative with
  | false => exact hunsigned
  | true => exact .negative hunsigned

private theorem natOfDigits?_unsigned {whole : List Char} {f : Option (List Char)}
    {e : Option (Bool × List Char)} (h : SpellsNumber cs ⟨false, whole, f, e⟩) :
    natOfDigits? cs =
      if f.isNone ∧ e.isNone then some (Nat.ofDigitChars 10 whole 0) else none := by
  cases h with
  | unsigned hwhole hleading hfraction hexponent =>
    cases hfraction with
    | some hds =>
      simp only [Option.isNone_some, Bool.false_eq_true, false_and, if_false]
      exact natOfDigits?_eq_none (c := '.') (by simp) rfl
    | none =>
      cases hexponent with
      | none =>
        simp only [Option.isNone_none, and_self, if_true, List.append_nil]
        exact natOfDigits?_eq_some_iff.mpr ⟨hwhole, rfl⟩
      | @bare c _ hc | @positive c _ hc | @negative c _ hc =>
        simp only [Option.isNone_some, Bool.false_eq_true, and_false, if_false]
        exact natOfDigits?_eq_none (c := c) (by simp) (isDigit_of_exponent hc)

/-- A number is read as an integer if it has neither a fraction nor an exponent. -/
theorem SpellsNumber.intOfDigits?_eq {p : NumberParts} (h : SpellsNumber cs p) :
    intOfDigits? cs = p.int? := by
  cases h with
  | negative h =>
    rw [intOfDigits?, natOfDigits?_unsigned h, NumberParts.int?]
    split <;> rfl
  | @unsigned whole fraction exponent f e hwhole hleading hfraction hexponent =>
    have hsign (cs : List Char) : whole ++ (fraction ++ exponent) ≠ '-' :: cs := by
      obtain ⟨c, hhead, hc⟩ := hwhole.head?_append (fraction ++ exponent)
      intro heq
      rw [heq] at hhead
      obtain rfl : '-' = c := Option.some.inj hhead
      cases hc
    have hread : intOfDigits? (whole ++ (fraction ++ exponent)) =
        (natOfDigits? (whole ++ (fraction ++ exponent))).map Int.ofNat := by
      unfold intOfDigits?
      split
      · exact absurd ‹_› (hsign _)
      · rfl
    rw [hread, natOfDigits?_unsigned (.unsigned hwhole hleading hfraction hexponent),
      NumberParts.int?]
    split <;> rfl

end

/-! ## Strings -/

/-- The characters between two quotes that stand for a text: the characters of the text themselves,
those with a name after a backslash, and those escaped by number, in two halves if need be. -/
inductive SpellsText : List Char → List Char → Prop
  | nil : SpellsText [] []
  | plain {c : Char} {cs text : List Char} (hquote : c ≠ '"') (hbackslash : c ≠ '\\')
    (hcontrol : 0x20 ≤ c.toNat) (h : SpellsText cs text) : SpellsText (c :: cs) (c :: text)
  | named {e c : Char} {cs text : List Char} (hname : namedEscape? e = some c)
    (h : SpellsText cs text) : SpellsText ('\\' :: e :: cs) (c :: text)
  | numbered {h₁ h₂ h₃ h₄ : Char} {n : Nat} {cs text : List Char}
    (hn : hexValue4? h₁ h₂ h₃ h₄ = some n) (hhalf : n < 0xD800 ∨ 0xDFFF < n)
    (h : SpellsText cs text) :
    SpellsText ('\\' :: 'u' :: h₁ :: h₂ :: h₃ :: h₄ :: cs) (.ofNat n :: text)
  | halves {h₁ h₂ h₃ h₄ l₁ l₂ l₃ l₄ : Char} {n m : Nat} {cs text : List Char}
    (hn : hexValue4? h₁ h₂ h₃ h₄ = some n) (hhigh : 0xD800 ≤ n ∧ n ≤ 0xDBFF)
    (hm : hexValue4? l₁ l₂ l₃ l₄ = some m) (hlow : 0xDC00 ≤ m ∧ m ≤ 0xDFFF)
    (h : SpellsText cs text) :
    SpellsText ('\\' :: 'u' :: h₁ :: h₂ :: h₃ :: h₄ :: '\\' :: 'u' :: l₁ :: l₂ :: l₃ :: l₄ :: cs)
      (.ofNat (0x10000 + (n - 0xD800) * 0x400 + (m - 0xDC00)) :: text)

theorem namedEscape?_ne_u {e c : Char} (h : namedEscape? e = some c) : e ≠ 'u' := by
  rintro rfl
  cases h

theorem SpellsText.stringRest {cs text : List Char} (h : SpellsText cs text) (rest : List Char) :
    stringRest (cs ++ '"' :: rest) = .ok (text, rest) := by
  induction h with
  | nil => rw [List.nil_append, Json.stringRest.eq_def]; simp
  | plain hquote hbackslash hcontrol h ih =>
    rw [List.cons_append, Json.stringRest.eq_def]
    simp [hquote, hbackslash, hcontrol.not_gt, ih, Except.map, consChar]
  | @named e c cs text hname h ih =>
    rw [List.cons_append, List.cons_append, Json.stringRest.eq_def]
    simp [hname, namedEscape?_ne_u hname, ih, Except.map, consChar]
  | @numbered h₁ h₂ h₃ h₄ n cs text hn hhalf h ih =>
    have hlow : ¬ (0xDC00 ≤ n ∧ n ≤ 0xDFFF) := by omega
    have hunit : n < 0xD800 ∨ 0xDBFF < n := by omega
    simp only [List.cons_append]
    rw [Json.stringRest.eq_def]
    simp [hn, hlow, hunit, ih, Except.map, consChar]
  | @halves h₁ h₂ h₃ h₄ l₁ l₂ l₃ l₄ n m cs text hn hhigh hm hlow h ih =>
    have hnlow : ¬ (0xDC00 ≤ n ∧ n ≤ 0xDFFF) := by omega
    have hunit : ¬ (n < 0xD800 ∨ 0xDBFF < n) := by omega
    simp only [List.cons_append]
    rw [Json.stringRest.eq_def]
    simp [hn, hnlow, hunit, hm, hlow, ih, Except.map, consChar]

theorem SpellsText.run {cs text : List Char} (h : SpellsText cs text) (rest : List Char) :
    stringBody.run (cs ++ '"' :: rest) = .ok (String.ofList text, rest) := by
  have hbody : stringBody.run (cs ++ '"' :: rest) =
      (Json.stringRest (cs ++ '"' :: rest)).map fun x => (String.ofList x.1, x.2) := rfl
  rw [hbody, h.stringRest]
  rfl

/-! ## Texts that hold one value -/

/-- The text holds these characters and blanks around them. -/
def Alone (cs : List Char) (s : String) : Prop :=
  ∃ before after, s.toList = before ++ (cs ++ after) ∧ (∀ c ∈ before, isBlank c) ∧
    ∀ c ∈ after, isBlank c

theorem run_peek_blanks {before rest : List Char} {c : Char} (h : ∀ c ∈ before, isBlank c)
    (hc : isBlank c = false) : peek.run (before ++ c :: rest) = .ok (some c, c :: rest) := by
  rw [run_peek, List.dropWhile_append_of_pos h, List.dropWhile_cons_of_neg (by simp [hc])]
  rfl

theorem stopsNumber_of_blank {after : List Char} (h : ∀ c ∈ after, isBlank c) :
    StopsNumber after := by
  cases after with
  | nil => trivial
  | cons c after =>
    have hc := h c List.mem_cons_self
    simp only [isBlank, Bool.or_eq_true, decide_eq_true_eq] at hc
    rcases hc with ((rfl | rfl) | rfl) | rfl <;> exact ⟨rfl, by decide, by decide, by decide⟩

theorem run'_endText {α : Type} {s : Scan α} {cs after : List Char} {r : Except Error α}
    (hrun : s.run cs = r.map (·, after)) (hafter : ∀ c ∈ after, isBlank c) :
    (do let a ← s; endText; pure a : Scan α).run' cs = r := by
  have hend : endText.run after = .ok ((), []) := by
    have hpeek : peek.run after = .ok (none, []) := by
      rw [run_peek, List.dropWhile_eq_nil_iff.mpr hafter]
      rfl
    rw [endText, run_bind_of hpeek]
    rfl
  rw [StateT.run'_eq, StateT.run_bind, hrun]
  cases r with
  | error e => rfl
  | ok a =>
    change Except.map Prod.fst ((endText >>= fun _ => pure a : Scan α).run after) = .ok a
    rw [run_bind_of hend]
    rfl

end EventIndex.Json
