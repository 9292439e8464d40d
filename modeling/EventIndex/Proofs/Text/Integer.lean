import EventIndex.Proofs.Text.Scanning

/-! # Spelled integers

An integer is spelled by one digit or more, perhaps after a minus sign. Nothing else spells an
integer: no other sign, no point, no exponent and no blank. -/

namespace EventIndex.Text

/-- The characters are digits, perhaps after a minus sign, and `n` is their value. -/
inductive Spells : List Char → Int → Prop
  | digits {ds : List Char} (h : IsDigits ds) : Spells ds (Nat.ofDigitChars 10 ds 0 : Nat)
  | negative {ds : List Char} (h : IsDigits ds) :
    Spells ('-' :: ds) (-(Nat.ofDigitChars 10 ds 0 : Nat))

theorem natOfDigits?_eq_some_iff {cs : List Char} {n : Nat} :
    natOfDigits? cs = some n ↔ IsDigits cs ∧ Nat.ofDigitChars 10 cs 0 = n := by
  simp only [natOfDigits?, IsDigits, List.all_eq_true]
  split
  · next h => rw [Option.some.injEq, iff_and_self]; exact fun _ => h
  · next h => simp only [h, false_and, reduceCtorEq]

theorem natOfDigits?_eq_none {cs : List Char} {c : Char} (hc : c ∈ cs) (h : c.isDigit = false) :
    natOfDigits? cs = none := by
  cases hn : natOfDigits? cs with
  | none => rfl
  | some n => cases h.symm.trans ((natOfDigits?_eq_some_iff.mp hn).1.2 c hc)

theorem IsDigits.head?_append {ds : List Char} (h : IsDigits ds) (rest : List Char) :
    ∃ c, (ds ++ rest).head? = some c ∧ c.isDigit := by
  obtain ⟨hne, hdigits⟩ := h
  cases ds with
  | nil => exact absurd rfl hne
  | cons c ds => exact ⟨c, rfl, hdigits c List.mem_cons_self⟩

theorem IsDigits.ne_minus {ds : List Char} (h : IsDigits ds) (cs : List Char) : ds ≠ '-' :: cs := by
  rintro rfl
  cases h.2 '-' List.mem_cons_self

theorem intOfDigits?_eq_some_iff {cs : List Char} {n : Int} :
    intOfDigits? cs = some n ↔ Spells cs n := by
  constructor
  · intro h
    unfold intOfDigits? at h
    split at h <;> obtain ⟨m, hm, rfl⟩ := Option.map_eq_some_iff.mp h <;>
      obtain ⟨hdigits, rfl⟩ := natOfDigits?_eq_some_iff.mp hm
    · exact .negative hdigits
    · exact .digits hdigits
  · rintro (⟨hdigits⟩ | ⟨hdigits⟩)
    · unfold intOfDigits?
      split
      · exact absurd rfl (hdigits.ne_minus _)
      · rw [natOfDigits?_eq_some_iff.mpr ⟨hdigits, rfl⟩]
        rfl
    · rw [intOfDigits?, natOfDigits?_eq_some_iff.mpr ⟨hdigits, rfl⟩]
      rfl

instance (cs : List Char) (n : Int) : Decidable (Spells cs n) :=
  decidable_of_iff (intOfDigits? cs = some n) intOfDigits?_eq_some_iff

theorem Spells.unique {cs : List Char} {m n : Int} (hm : Spells cs m) (hn : Spells cs n) : m = n :=
  Option.some.inj ((intOfDigits?_eq_some_iff.mpr hm).symm.trans (intOfDigits?_eq_some_iff.mpr hn))

theorem spells_toString (n : Int) : Spells (toString n).toList n :=
  intOfDigits?_eq_some_iff.mp (intOfDigits?_toString n)

end EventIndex.Text
