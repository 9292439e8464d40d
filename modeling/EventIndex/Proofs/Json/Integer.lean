import EventIndex.Proofs.Json.Spelling
import EventIndex.Proofs.Json.Types

/-! # Integers read alike

An integer of the chain is read straight from a text or from a value that was read before. A number
reaches the reader in different ways then, as a word, as its text or as a float, but just the
spelled integers in the range of the type are read, whichever way it is. -/

namespace EventIndex.Json

open Text

/-! ## Numbers as they are offered -/

/-- How a number is offered to a reader of integers: as an integer of 64 bits, as one of 128 bits,
as a float, or by its text. -/
inductive Offer where
  | word (n : Int)
  | wide (n : Int)
  | float (text : String)
  | spelled (text : String)
deriving DecidableEq

namespace Offer

/-- A number that fits no integer is a float if it is spelled as one. -/
def unsized (text : String) : Offer :=
  match floatSpelling? text with
  | some shortest => float shortest
  | none => spelled text

/-- A value offers a number as the smallest integer, unsigned or signed, that it fits. -/
def ofValue (text : String) : Offer :=
  match intOfDigits? text.toList with
  | some n =>
    if -0x8000000000000000 ≤ n ∧ n < 0x10000000000000000 then word n
    else if -amountLimit ≤ n ∧ n < 2 * amountLimit then wide n
    else unsized text
  | none => unsized text

/-- A text offers a number as a word if it fits one, and else by its digits. -/
def ofParts (p : NumberParts) : Offer :=
  match p.word? with
  | some n => word n
  | none => spelled p.text

def read : Offer → Except Error Amount
  | word n | wide n =>
    match Amount.ofInt? n with
    | some a => .ok a
    | none => .error (.integerOutOfRange n)
  | float text => .error (.invalidType (.float text) integerForm)
  | spelled text => amountOfNumber text

theorem read_unsized {text : String} (h : amountOfText? text = none) :
    (unsized text).read = .error (wideNumber text) := by
  rw [unsized, wideNumber]
  cases floatSpelling? text with
  | some shortest => rfl
  | none => rw [read, amountOfNumber, h]

end Offer

theorem amountOfText?_eq_some_iff {s : String} {a : Amount} :
    amountOfText? s = some a ↔ Spells s.toList a.val := by
  rw [amountOfText?, Option.bind_eq_some_iff]
  simp only [Amount.ofInt?_eq_some_iff, intOfDigits?_eq_some_iff, exists_eq_right]

theorem amountOfNumber_eq_ok_iff {s : String} {a : Amount} :
    amountOfNumber s = .ok a ↔ Spells s.toList a.val := by
  rw [← amountOfText?_eq_some_iff, amountOfNumber]
  cases amountOfText? s <;> simp

theorem amountOfString_eq_ok_iff {s : String} {a : Amount} :
    amountOfString s = .ok a ↔ Spells s.toList a.val := by
  rw [← amountOfText?_eq_some_iff, amountOfString]
  cases amountOfText? s <;> simp

theorem amountOfJson_number (text : String) :
    amountOfJson (number text) = (Offer.ofValue text).read := by
  rw [amountOfJson, Offer.ofValue]
  cases hn : intOfDigits? text.toList with
  | none =>
    have hnone : amountOfText? text = none := by rw [amountOfText?, hn]; rfl
    exact (Offer.read_unsized hnone).symm
  | some n =>
    dsimp only
    cases ha : Amount.ofInt? n with
    | some a =>
      obtain rfl := Amount.ofInt?_eq_some_iff.mp ha
      have hmin := a.min_le
      have hmax := a.lt_max
      have hwide : -amountLimit ≤ a.val ∧ a.val < 2 * amountLimit := by
        simp only [amountLimit] at hmin hmax ⊢
        omega
      rw [if_pos hwide]
      by_cases hword : -0x8000000000000000 ≤ a.val ∧ a.val < 0x10000000000000000
      · rw [if_pos hword, Offer.read, ha]
      · rw [if_neg hword, Offer.read, ha]
    | none =>
      have hnone : amountOfText? text = none := by rw [amountOfText?, hn]; exact ha
      have hout : ¬ (-amountLimit ≤ n ∧ n < amountLimit) := by
        intro h
        simp [Amount.ofInt?, h] at ha
      simp only [amountLimit] at hout
      rw [if_neg (show ¬ (-0x8000000000000000 ≤ n ∧ n < 0x10000000000000000) by omega)]
      -- Between the limits of signed and unsigned integers of 128 bits the range is exceeded.
      by_cases hwide : 0 ≤ n ∧ n < 0x100000000000000000000000000000000
      · have hoffered : -amountLimit ≤ n ∧ n < 2 * amountLimit := by
          simp only [amountLimit]
          omega
        rw [if_pos hwide, if_pos hoffered, Offer.read, ha]
      · have hoffered : ¬ (-amountLimit ≤ n ∧ n < 2 * amountLimit) := by
          simp only [amountLimit]
          omega
        rw [if_neg hwide, if_neg hoffered, Offer.read_unsized hnone]

/-- However a number of a value is offered, just a spelled integer is read. -/
theorem Offer.read_ofValue_eq_ok_iff {text : String} {a : Amount} :
    (ofValue text).read = .ok a ↔ Spells text.toList a.val := by
  have hint (n : Int) : (match Amount.ofInt? n with
      | some a => Except.ok a
      | none => .error (Error.integerOutOfRange n)) = .ok a ↔ n = a.val := by
    rw [← Amount.ofInt?_eq_some_iff]
    cases Amount.ofInt? n <;> simp
  rw [← intOfDigits?_eq_some_iff, ofValue]
  cases hn : intOfDigits? text.toList with
  | none =>
    have hnone : amountOfText? text = none := by rw [amountOfText?, hn]; rfl
    simp [read_unsized hnone]
  | some n =>
    rw [Option.some.injEq]
    dsimp only
    split
    · exact hint n
    · split
      · exact hint n
      · next hwide =>
        have hmin := a.min_le
        have hmax := a.lt_max
        simp only [amountLimit] at hwide hmin hmax
        have hout : Amount.ofInt? n = none := dif_neg (by simp only [amountLimit]; omega)
        have hnone : amountOfText? text = none := by rw [amountOfText?, hn]; exact hout
        rw [read_unsized hnone]
        refine iff_of_false (by simp) ?_
        rintro rfl
        omega

theorem NumberParts.word?_eq_some {p : NumberParts} {n : Int} (h : p.word? = some n) :
    p.int? = some n ∧ -0x8000000000000000 ≤ n ∧ n < 0x10000000000000000 := by
  obtain ⟨hint, hfits⟩ := Option.filter_eq_some_iff.mp h
  refine ⟨hint, ?_⟩
  simp only [int?] at hint
  split at hint
  · obtain rfl := Option.some.inj hint
    cases hsign : p.negative with
    | true =>
      simp only [hsign, if_true, decide_eq_true_eq] at hfits ⊢
      omega
    | false =>
      simp only [hsign, Bool.false_eq_true, if_false, decide_eq_true_eq] at hfits ⊢
      omega
  · cases hint

theorem amountOfNumber_text {p : NumberParts} (hp : p.Regular) :
    amountOfNumber p.text = (Offer.ofParts p).read := by
  rw [Offer.ofParts]
  cases hword : p.word? with
  | none => rfl
  | some n =>
    obtain ⟨hint, hmin, hmax⟩ := NumberParts.word?_eq_some hword
    have hspells : Spells p.text.toList n := by
      rw [← intOfDigits?_eq_some_iff, hp.spellsNumber.intOfDigits?_eq, hint]
    have hrange : -amountLimit ≤ n ∧ n < amountLimit := by
      simp only [amountLimit]
      omega
    obtain ⟨a, rfl⟩ : ∃ a : Amount, a.val = n := ⟨⟨n, hrange.1, hrange.2⟩, rfl⟩
    rw [amountOfNumber_eq_ok_iff.mpr hspells, Offer.read, Amount.ofInt?_val]

/-! ## Both ways of reading -/

/-- The characters are a number, whose text they are, or a string, which stands for the text. -/
inductive SpellsScalar : List Char → List Char → Prop
  | number {cs : List Char} {p : NumberParts} (h : SpellsNumber cs p) : SpellsScalar cs cs
  | string {cs text : List Char} (h : SpellsText cs text) :
    SpellsScalar ('"' :: (cs ++ ['"'])) text

variable {cs text : List Char}

theorem SpellsNumber.starts {p : NumberParts} (h : SpellsNumber cs p) :
    ∃ c cs', cs = c :: cs' ∧ (c = '-' ∨ c.isDigit) := by
  cases h with
  | negative h => exact ⟨'-', _, rfl, .inl rfl⟩
  | @unsigned whole fraction exponent _ _ hwhole =>
    obtain ⟨c, hhead, hc⟩ := hwhole.head?_append (fraction ++ exponent)
    obtain ⟨cs, hcs⟩ := List.head?_eq_some_iff.mp hhead
    exact ⟨c, cs, hcs, .inr hc⟩

/-- The characters `cs` stand for the value `v` when values are read, and for an integer with the
result `r`. -/
structure ReadAs (cs : List Char) (v : Json) (r : Except Error Amount) : Prop where
  value : ∀ (embedded : String → Except Error Json) (depth : Nat) (before rest : List Char),
    (∀ c ∈ before, isBlank c) → StopsNumber rest →
      (valueWith embedded depth).run (before ++ (cs ++ rest)) = .ok (v, rest)
  integer : ∀ (depth : Nat) (before rest : List Char), (∀ c ∈ before, isBlank c) →
    StopsNumber rest → (scanAmount depth).run (before ++ (cs ++ rest)) = r.map (·, rest)

theorem SpellsNumber.readAs {p : NumberParts} (h : SpellsNumber cs p) :
    ReadAs cs (number p.text) (Offer.ofParts p).read := by
  rw [← amountOfNumber_text h.regular]
  obtain ⟨c, cs', rfl, hc⟩ := h.starts
  have hblank := isBlank_of_number hc
  constructor
  · intro embedded depth before rest hbefore hrest
    have hword : c ≠ 'n' ∧ c ≠ 't' ∧ c ≠ 'f' := by
      refine ⟨?_, ?_, ?_⟩ <;> rintro rfl <;> simp at hc
    rw [valueWith.eq_def, List.cons_append, run_bind_of (run_peek_blanks hbefore hblank)]
    simp only [hword, hc, if_false, if_true]
    rw [← List.cons_append, run_bind_of (h.run hrest)]
    rfl
  · intro depth before rest hbefore hrest
    rw [scanAmount, List.cons_append, run_bind_of (run_peek_blanks hbefore hblank)]
    simp only [hc, if_true]
    rw [← List.cons_append, run_bind_of (h.run hrest)]
    cases amountOfNumber p.text <;> rfl

theorem SpellsText.readAs (h : SpellsText cs text) :
    ReadAs ('"' :: (cs ++ ['"'])) (string (.ofList text)) (amountOfString (.ofList text)) := by
  have htext (rest : List Char) : '"' :: (cs ++ ['"']) ++ rest = '"' :: (cs ++ '"' :: rest) := by
    simp
  constructor
  · intro embedded depth before rest hbefore hrest
    rw [htext, valueWith.eq_def, run_bind_of (run_peek_blanks hbefore (by decide))]
    simp only [Char.reduceEq, Char.reduceIsDigit, Bool.false_eq_true, or_self, if_false, if_true]
    rw [run_bind_of (run_skip _ _), run_bind_of (h.run rest)]
    rfl
  · intro depth before rest hbefore hrest
    rw [htext, scanAmount, run_bind_of (run_peek_blanks hbefore (by decide))]
    simp only [Char.reduceEq, Char.reduceIsDigit, Bool.false_eq_true, or_self, if_false, if_true]
    rw [run_bind_of (run_skip _ _), run_bind_of (h.run rest)]
    cases amountOfString (.ofList text) <;> rfl

/-- A number or a string is read as some value. Straight from the text or from this value, just the
integers are read that the characters spell. -/
theorem SpellsScalar.exists_readAs (h : SpellsScalar cs text) : ∃ v r, ReadAs cs v r ∧
    (∀ a, r = .ok a ↔ Spells text a.val) ∧ ∀ a, amountOfJson v = .ok a ↔ Spells text a.val := by
  cases h with
  | @number _ p h =>
    have hspells (a : Amount) : Spells p.text.toList a.val ↔ Spells cs a.val := by
      rw [← intOfDigits?_eq_some_iff, ← intOfDigits?_eq_some_iff, h.intOfDigits?_eq,
        h.regular.spellsNumber.intOfDigits?_eq]
    refine ⟨_, _, h.readAs, fun a => ?_, fun a => ?_⟩
    · rw [← amountOfNumber_text h.regular, amountOfNumber_eq_ok_iff, hspells]
    · rw [amountOfJson_number, Offer.read_ofValue_eq_ok_iff, hspells]
  | string h =>
    have hspells (a : Amount) :
        amountOfString (.ofList text) = .ok a ↔ Spells text a.val := by
      rw [amountOfString_eq_ok_iff, String.toList_ofList]
    exact ⟨_, _, h.readAs, hspells, hspells⟩

/-! ## Types of integers -/

inductive IntegerType where
  | word8
  | word32
  | word64
  | signed64
  | signed128
deriving DecidableEq

namespace IntegerType

def least : IntegerType → Int
  | word8 | word32 | word64 => 0
  | signed64 => -0x8000000000000000
  | signed128 => -amountLimit

def most : IntegerType → Int
  | word8 => 0xff
  | word32 => 0xffffffff
  | word64 => 0xffffffffffffffff
  | signed64 => 0x7fffffffffffffff
  | signed128 => amountLimit - 1

def Holds (type : IntegerType) (n : Int) : Prop :=
  type.least ≤ n ∧ n ≤ type.most

/-- An integer of the type as a value. -/
def ofJson (type : IntegerType) (v : Json) : Except Error Int := do
  inRange type.least type.most (← amountOfJson v)

/-- An integer of the type straight from a text that holds nothing else. -/
def ofText (type : IntegerType) (s : String) : Except Error Int :=
  (Reader.integer type.least type.most).read s

/-- An integer of the type from the value in a text. -/
def ofTextValue (type : IntegerType) (s : String) : Except Error Int := do
  type.ofJson (← Json.ofText s)

variable (type : IntegerType)

theorem Holds.exists_amount {type : IntegerType} {n : Int} (h : type.Holds n) :
    ∃ a : Amount, a.val = n := by
  obtain ⟨hleast, hmost⟩ := h
  have hrange : -amountLimit ≤ n ∧ n < amountLimit := by
    cases type <;> simp only [least, most, amountLimit] at * <;> omega
  exact ⟨⟨n, hrange.1, hrange.2⟩, rfl⟩

/-- The integers are read that are spelled and in range, if amounts are read that are spelled. -/
theorem bind_inRange_eq_ok_iff {r : Except Error Amount} {text : List Char}
    (h : ∀ a, r = .ok a ↔ Spells text a.val) (n : Int) :
    (r >>= inRange type.least type.most) = .ok n ↔ Spells text n ∧ type.Holds n := by
  constructor
  · intro hread
    cases hr : r with
    | error e =>
      rw [hr] at hread
      cases hread
    | ok a =>
      rw [hr] at hread
      change inRange type.least type.most a = .ok n at hread
      rw [inRange] at hread
      split at hread
      · next hrange =>
        obtain rfl := Except.ok.inj hread
        exact ⟨(h a).mp hr, hrange⟩
      · cases hread
  · rintro ⟨hspells, hholds⟩
    obtain ⟨a, rfl⟩ := hholds.exists_amount
    rw [(h a).mpr hspells]
    exact if_pos hholds

/-- Of a number or a string that stands alone in a text, an integer of the type is read if its text
is digits, perhaps after a minus sign, with a value in the range of the type, and then this value is
read: straight from the text and from the value in it alike. Amounts that were written as strings
are read back both ways. -/
theorem reads_spelled {cs text : List Char} (h : SpellsScalar cs text) {s : String}
    (hs : Alone cs s) :
    (∀ n, (type.ofText s = .ok n ↔ Spells text n ∧ type.Holds n) ∧
      (type.ofTextValue s = .ok n ↔ Spells text n ∧ type.Holds n)) ∧
    ∀ a : Amount, Codec.amount.ofText (Codec.amount.text a) = .ok a ∧
      amountOfJson (Codec.amount.toJson a) = .ok a := by
  obtain ⟨v, r, hread, hstream, hvalue⟩ := h.exists_readAs
  obtain ⟨before, after, hchars, hbefore, hafter⟩ := hs
  have hstops := stopsNumber_of_blank hafter
  have htext : type.ofText s = r >>= inRange type.least type.most := by
    refine run'_endText ?_ hafter
    rw [hchars, Reader.integer, StateT.run_bind, hread.integer _ _ _ hbefore hstops]
    cases r with
    | error e => rfl
    | ok a =>
      simp only [Except.map, bind, Except.bind]
      cases inRange type.least type.most a <;> rfl
  have hofText : Json.ofText s = .ok v := by
    refine run'_endText ?_ hafter
    rw [hchars]
    exact hread.value _ _ _ _ hbefore hstops
  have htextValue : type.ofTextValue s = amountOfJson v >>= inRange type.least type.most := by
    rw [ofTextValue, hofText]
    rfl
  refine ⟨fun n => ⟨?_, ?_⟩, fun a => ⟨?_, ?_⟩⟩
  · rw [htext]
    exact type.bind_inRange_eq_ok_iff hstream n
  · rw [htextValue]
    exact type.bind_inRange_eq_ok_iff hvalue n
  · exact Codec.ofText_text (Codec.faithful_amount a maxDepth (Nat.zero_le _))
  · exact amountOfString_text a

/-- The negative zero is read as an unsigned integer. The least integer beyond the range is not
read, though a value offers it as one of 128 bits, and a number with an exponent is none. -/
theorem reads_spelled_of_limits :
    let beyond := " 170141183460469231731687303715884105728\n"
    (word8.ofText "-0" = .ok 0 ∧ word8.ofTextValue "-0" = .ok 0) ∧
      (∀ n, signed128.ofText beyond ≠ .ok n ∧ signed128.ofTextValue beyond ≠ .ok n) ∧
      ∀ n, word32.ofText "1e2" ≠ .ok n ∧ word32.ofTextValue "1e2" ≠ .ok n := by
  intro beyond
  let digits := "170141183460469231731687303715884105728".toList
  have hzero : SpellsScalar ['-', '0'] ['-', '0'] := by
    have hdigits : IsDigits ['0'] := ⟨by simp, by simp⟩
    exact .number (.negative (.unsigned hdigits (by simp) .none .none))
  have hbeyond : SpellsScalar digits digits := by
    have hdigits : IsDigits digits := ⟨by decide, List.all_eq_true.mp (by decide)⟩
    have hleading (c : Char) (cs : List Char) : digits ≠ '0' :: c :: cs := by
      intro h
      have hhead : digits.head? = some '0' := congrArg List.head? h
      exact absurd hhead (by decide)
    have hnumber := SpellsNumber.unsigned hdigits hleading .none .none
    rw [List.append_nil, List.append_nil] at hnumber
    exact .number hnumber
  have hhundred : SpellsScalar ['1', 'e', '2'] ['1', 'e', '2'] := by
    have hone : IsDigits ['1'] := ⟨by simp, by simp⟩
    have htwo : IsDigits ['2'] := ⟨by simp, by simp⟩
    exact .number (.unsigned hone (by simp) .none (.bare (.inl rfl) htwo))
  refine ⟨?_, fun n => ?_, fun n => ?_⟩
  · obtain ⟨hread, -⟩ := reads_spelled word8 hzero (s := "-0") ⟨[], [], by decide, by simp, by simp⟩
    have hspelled : Spells ['-', '0'] 0 ∧ word8.Holds 0 := ⟨by decide, by decide, by decide⟩
    exact ⟨(hread 0).1.mpr hspelled, (hread 0).2.mpr hspelled⟩
  · obtain ⟨hread, -⟩ := reads_spelled signed128 hbeyond (s := beyond)
      ⟨[' '], ['\n'], by decide, by simp [isBlank], by simp [isBlank]⟩
    have hvalue : Spells digits 170141183460469231731687303715884105728 := by decide
    have hout (h : Spells digits n ∧ signed128.Holds n) : False := by
      obtain rfl := h.1.unique hvalue
      exact absurd h.2.2 (by decide)
    exact ⟨fun h => hout ((hread n).1.mp h), fun h => hout ((hread n).2.mp h)⟩
  · obtain ⟨hread, -⟩ := reads_spelled word32 hhundred (s := "1e2")
      ⟨[], [], by decide, by simp, by simp⟩
    have hnone (h : Spells ['1', 'e', '2'] n) : False := by
      cases (intOfDigits?_eq_some_iff.mpr h).symm.trans (show _ = none by decide)
    exact ⟨fun h => hnone ((hread n).1.mp h).1, fun h => hnone ((hread n).2.mp h).1⟩

end IntegerType

end EventIndex.Json
