import EventIndex.Time.Text
import EventIndex.Proofs.Text.Scanning

/-! # Instants read back

An instant is read back from its text: years of any number of digits and of either sign, leap
seconds, and as many digits after the point as were written. -/

namespace EventIndex.Time

open Text

variable {n width : Nat} {rest : List Char}

/-! ## Padded numbers -/

theorem isDigits_padded (width n : Nat) : IsDigits (padded width n) := by
  refine ⟨List.append_ne_nil_of_right_ne_nil _ (isDigits_toDigits n).1, fun c hc => ?_⟩
  rcases List.mem_append.mp hc with hc | hc
  · rw [List.eq_of_mem_replicate hc]
    rfl
  · exact (isDigits_toDigits n).2 c hc

theorem length_padded (hwidth : 0 < width) (h : n < 10 ^ width) :
    (padded width n).length = width := by
  have hlength := Nat.toDigits_length 10 n width hwidth h
  rw [padded, List.length_append, List.length_replicate]
  omega

theorem ofDigitChars_padded (width n : Nat) : Nat.ofDigitChars 10 (padded width n) 0 = n := by
  have hzeros (k : Nat) : Nat.ofDigitChars 10 (List.replicate k '0') 0 = 0 := by
    induction k with
    | zero => rfl
    | succ k ih => rw [List.replicate_succ, Nat.ofDigitChars_cons]; exact ih
  rw [padded, Nat.ofDigitChars_append, hzeros,
    Nat.ofDigitChars_toDigits (by decide) (Nat.le_refl _)]

theorem head?_padded (width n : Nat) (rest : List Char) :
    ∃ c cs, padded width n ++ rest = c :: cs ∧ c.isDigit := by
  obtain ⟨hne, hdigit⟩ := isDigits_padded width n
  cases h : padded width n with
  | nil => exact absurd h hne
  | cons c cs => exact ⟨c, cs ++ rest, rfl, hdigit c (h ▸ List.mem_cons_self)⟩

theorem isBlank_of_isDigit {c : Char} (h : c.isDigit) : isBlank c = false := by
  have hrange : 48 ≤ c.toNat ∧ c.toNat ≤ 57 := by
    simpa [Char.isDigit, UInt32.le_iff_toNat_le] using h
  simp [isBlank]
  omega

theorem run_number {limit : Nat} (hlimit : (padded width n).length ≤ limit)
    (hrest : NoDigit rest) :
    (number (some limit)).run (padded width n ++ rest) = .ok (n, rest) := by
  obtain ⟨c, cs, hcs, hc⟩ := head?_padded width n rest
  have htake := takeWhile_isDigit (isDigits_padded width n).2 hrest
  have hdrop : (padded width n ++ rest).drop (padded width n).length = rest := by simp
  have hvalue := ofDigitChars_padded width n
  rw [hcs] at htake hdrop ⊢
  simp only [number, StateT.run, hc, if_true, htake, List.take_of_length_le hlimit, hdrop, hvalue]

theorem run_number_none (width n : Nat) (hrest : NoDigit rest) :
    (number none).run (padded width n ++ rest) = .ok (n, rest) := by
  obtain ⟨c, cs, hcs, hc⟩ := head?_padded width n rest
  have htake := takeWhile_isDigit (isDigits_padded width n).2 hrest
  have hdrop : (padded width n ++ rest).drop (padded width n).length = rest := by simp
  have hvalue := ofDigitChars_padded width n
  rw [hcs] at htake hdrop ⊢
  simp only [number, StateT.run, hc, if_true, htake, hdrop, hvalue]

theorem run_skipBlanks {c : Char} (h : isBlank c = false) (cs : List Char) :
    skipBlanks.run (c :: cs) = .ok ((), c :: cs) := by
  have hcs : trimStart (c :: cs) = c :: cs := by simp [trimStart, h]
  change Except.ok ((), trimStart (c :: cs)) = _
  rw [hcs]

theorem run_literal {accept : Char → Bool} {c : Char} (h : accept c) (cs : List Char) :
    (literal accept).run (c :: cs) = .ok ((), cs) := by
  simp [literal, StateT.run, h]

theorem run_field {least most : Nat} (h : least ≤ n ∧ n ≤ most) (hmost : most < 100)
    (hrest : NoDigit rest) : (field least most).run (padded 2 n ++ rest) = .ok (n, rest) := by
  obtain ⟨c, cs, hcs, hc⟩ := head?_padded 2 n rest
  have hblanks : skipBlanks.run (padded 2 n ++ rest) = .ok ((), padded 2 n ++ rest) := by
    rw [hcs]
    exact run_skipBlanks (isBlank_of_isDigit hc) cs
  have hlength : (padded 2 n).length = 2 := length_padded (by decide) (by omega)
  have hnumber := run_number hlength.le hrest
  rw [field, run_bind_of hblanks, run_bind_of hnumber]
  simp only [h, and_self, if_true]
  rfl

/-! ## Parts of an instant -/

theorem run_year {y : Int} (hmin : -262143 ≤ y) (hmax : y ≤ 262142) (rest : List Char) :
    year.run (yearText y ++ '-' :: rest) = .ok (y, '-' :: rest) := by
  have hrange : -0x80000000 ≤ y ∧ y < 0x80000000 := by omega
  let check (y : Int) : Scan Int :=
    if -0x80000000 ≤ y ∧ y < 0x80000000 then pure y else throw .outOfRange
  have hcheck : (check y).run ('-' :: rest) = .ok (y, '-' :: rest) := by
    simp only [check, hrange, and_self, if_true]
    rfl
  have hset (sign : Char) (cs : List Char) :
      (set cs : Scan Unit).run (sign :: cs) = .ok ((), cs) := rfl
  have hmark : NoDigit ('-' :: rest) := rfl
  have hnone := run_number_none 4 y.natAbs hmark
  rw [yearText, year]
  split
  · next h =>
    have hlength : (padded 4 y.toNat).length = 4 := length_padded (by decide) (by omega)
    have hsome := run_number hlength.le hmark
    obtain ⟨c, cs, hcs, hc⟩ := head?_padded 4 y.toNat ('-' :: rest)
    have hsign : c ≠ '-' ∧ c ≠ '+' := by
      constructor <;> rintro rfl <;> cases hc
    have hvalue : Int.ofNat y.toNat = y := Int.toNat_of_nonneg h.1
    rw [hcs] at hsome ⊢
    rw [run_bind_of (run_skipBlanks (isBlank_of_isDigit hc) cs),
      run_bind_of (s := get) (a := c :: cs) rfl]
    split
    · next heq => exact absurd (List.cons.inj heq).1 hsign.1
    · next heq => exact absurd (List.cons.inj heq).1 hsign.2
    · rw [run_bind_of (run_map_of hsome), hvalue]
      exact hcheck
  -- After a sign all digits belong to the year; they end at the mark of the month.
  split
  · next hneg =>
    have hvalue : -Int.ofNat y.natAbs = y := by simp only [Int.ofNat_eq_natCast]; omega
    rw [List.cons_append, run_bind_of (run_skipBlanks (by decide) _), run_bind_of (s := get) rfl]
    split
    · next heq =>
      obtain ⟨-, rfl⟩ := List.cons.inj heq
      rw [run_bind_of (hset '-' _), run_bind_of hnone, pure_bind, hvalue]
      exact hcheck
    · next heq => exact absurd (List.cons.inj heq).1 (by decide)
    · next hminus _ => exact absurd rfl (hminus _)
  · next hneg =>
    have hvalue : Int.ofNat y.natAbs = y := by simp only [Int.ofNat_eq_natCast]; omega
    rw [List.cons_append, run_bind_of (run_skipBlanks (by decide) _), run_bind_of (s := get) rfl]
    split
    · next heq => exact absurd (List.cons.inj heq).1 (by decide)
    · next heq =>
      obtain ⟨-, rfl⟩ := List.cons.inj heq
      rw [run_bind_of (hset '+' _), run_bind_of hnone, pure_bind, hvalue]
      exact hcheck
    · next hplus => exact absurd rfl (hplus _)

theorem run_fraction_digits (digits value : Nat) (hdigits : 0 < digits ∧ digits ≤ 9)
    (h : value < 10 ^ digits) (rest : List Char) :
    fraction.run ('.' :: padded digits value ++ 'Z' :: rest) =
      .ok (value * Nat.pow 10 (9 - digits), 'Z' :: rest) := by
  have hlength := length_padded hdigits.1 h
  have hmark : NoDigit ('Z' :: rest) := rfl
  have hnumber := run_number (hlength.le.trans hdigits.2) hmark
  have hcount : (padded digits value ++ 'Z' :: rest).length - ('Z' :: rest).length = digits := by
    simp [hlength]
  rw [fraction, List.cons_append, run_bind_of (s := get) rfl]
  split
  · next heq =>
    obtain ⟨-, rfl⟩ := List.cons.inj heq
    rw [run_bind_of (s := set (padded digits value ++ 'Z' :: rest)) (a := ()) rfl,
      run_bind_of hnumber, run_bind_of (s := get) rfl, hcount]
    rfl
  · next hpoint => exact absurd rfl (hpoint _)

theorem run_fraction {nanos : Nat} (h : nanos < 1000000000) (rest : List Char) :
    fraction.run (fractionText nanos ++ 'Z' :: rest) = .ok (nanos, 'Z' :: rest) := by
  rw [fractionText]
  split
  · next hzero =>
    subst hzero
    rfl
  split
  · next hmillis =>
    rw [run_fraction_digits 3 (nanos / 1000000) (by decide) (by omega)]
    have hvalue : nanos / 1000000 * Nat.pow 10 (9 - 3) = nanos := by
      change nanos / 1000000 * 1000000 = nanos
      omega
    rw [hvalue]
  split
  · next hmicros =>
    rw [run_fraction_digits 6 (nanos / 1000) (by decide) (by omega)]
    have hvalue : nanos / 1000 * Nat.pow 10 (9 - 6) = nanos := by
      change nanos / 1000 * 1000 = nanos
      omega
    rw [hvalue]
  · rw [run_fraction_digits 9 nanos (by decide) (by omega)]
    exact congrArg (fun n => Except.ok (n, 'Z' :: rest)) (Nat.mul_one nanos)

theorem run_zone : zone.run ['Z'] = .ok (0, []) := rfl

end EventIndex.Time

namespace EventIndex.Timestamp

open Time Text

theorem ofText_text (t : Timestamp) : ofText t.text = .ok t := by
  obtain ⟨month_pos, month_le⟩ := t.date.month_mem
  obtain ⟨day_pos, day_le⟩ := t.date.day_mem
  have hday : t.date.day ≤ 31 := by
    have : daysIn t.date.year t.date.month ≤ 31 := by
      unfold daysIn
      split <;> (try split) <;> omega
    omega
  have hsecond := t.second_lt
  have hnanos := t.nanos_lt
  have hleap := t.leap
  -- A leap second is written as the second 60 of its minute.
  have hfield : t.second % 60 + t.nanos / 1000000000 ≤ 60 := by omega
  have hfraction : NoDigit (fractionText (t.nanos % 1000000000) ++ ['Z']) := by
    unfold fractionText
    split
    · rfl
    split
    · rfl
    split <;> rfl
  have hsplit : (t.second % 60 + t.nanos / 1000000000) / 60 = t.nanos / 1000000000 := by omega
  have htotal : t.second / 3600 * 3600 + t.second / 60 % 60 * 60 +
      (t.second % 60 + t.nanos / 1000000000 - t.nanos / 1000000000) = t.second := by omega
  have hparts : t.nanos % 1000000000 + t.nanos / 1000000000 * 1000000000 = t.nanos := by omega
  have hend : skipBlanks.run [] = .ok ((), []) := rfl
  have hdateTime : dateTime.run t.text.toList = .ok (t, []) := by
    rw [text, String.toList_ofList, secondsText, dateTime]
    simp only [List.append_assoc, List.cons_append]
    rw [run_bind_of (run_year t.date.min_year t.date.max_year _),
      run_bind_of (run_skipBlanks (by decide) _), run_bind_of (run_literal (by decide) _),
      run_bind_of (run_field ⟨month_pos, month_le⟩ (by decide) (by rfl)),
      run_bind_of (run_skipBlanks (by decide) _), run_bind_of (run_literal (by decide) _),
      run_bind_of (run_field ⟨day_pos, hday⟩ (by decide) (by rfl)),
      run_bind_of (run_literal (by decide) _),
      run_bind_of (run_field (by omega) (by decide) (by rfl)),
      run_bind_of (run_skipBlanks (by decide) _), run_bind_of (run_literal (by decide) _),
      run_bind_of (run_field (by omega) (by decide) (by rfl)),
      run_bind_of (run_skipBlanks (by decide) _), run_bind_of (run_literal (by decide) _),
      run_bind_of (run_field ⟨Nat.zero_le _, hfield⟩ (by decide) hfraction),
      run_bind_of (run_fraction (Nat.mod_lt _ (by decide)) _),
      run_bind_of (run_skipBlanks (by decide) _), run_bind_of run_zone,
      run_bind_of hend, run_bind_of (s := get) (a := []) rfl]
    rw [if_pos (by rfl), Date.ofFields?_fields]
    dsimp only
    rw [if_neg (by decide), hsplit, htotal, hparts, ofLocal?_zero]
    rfl
  exact congrArg (Except.map Prod.fst) hdateTime

end EventIndex.Timestamp
