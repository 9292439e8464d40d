import EventIndex.Json.Codec
import EventIndex.Proofs.Json.Containers

/-! # Types read back

A codec is faithful if it reads back what it writes, for every value of its type. Words, amounts,
strings and names are faithful, and so are lists, values that may be missing and records of faithful
codecs. Different values of a faithful codec have different texts. -/

namespace EventIndex.Json

open Text

/-! ## Numbers and truth values -/

def wholeParts (n : Nat) : NumberParts :=
  ⟨false, Nat.toDigits 10 n, none, none⟩

theorem regular_wholeParts (n : Nat) : (wholeParts n).Regular where
  whole := isDigits_toDigits n
  leading := toDigits_ne_zero_cons n
  fraction := by simp [wholeParts]
  exponent := by simp [wholeParts]

theorem chars_ofNat (n : Nat) : (ofNat n).chars = (wholeParts n).text.toList := by
  simp [ofNat, chars, wholeParts, NumberParts.toList_text, NumberParts.fractionChars,
    NumberParts.exponentChars, Nat.toList_repr]

theorem word?_wholeParts {n : Nat} (h : n < 0x10000000000000000) :
    (wholeParts n).word? = some (n : Int) := by
  have hint : (wholeParts n).int? = some (n : Int) := by
    simp [NumberParts.int?, wholeParts, Nat.ofDigitChars_toDigits]
  have hbound : (n : Int) < 0x10000000000000000 := by omega
  rw [NumberParts.word?, hint]
  simp [wholeParts, hbound]

theorem NumberParts.Regular.starts {p : NumberParts} (hp : p.Regular) :
    ∃ c cs, p.text.toList = c :: cs ∧ (c = '-' ∨ c.isDigit) := by
  obtain ⟨c, hhead, hc⟩ := hp.head?_whole (p.fractionChars ++ p.exponentChars)
  rw [p.toList_text]
  cases p.negative with
  | true => exact ⟨'-', _, rfl, .inl rfl⟩
  | false =>
    obtain ⟨cs, hcs⟩ := List.head?_eq_some_iff.mp hhead
    exact ⟨c, cs, by simpa using hcs, .inr hc⟩

theorem isBlank_of_number {c : Char} (h : c = '-' ∨ c.isDigit) : isBlank c = false := by
  rcases h with rfl | h
  · rfl
  · by_contra hblank
    simp only [isBlank, Bool.not_eq_false, Bool.or_eq_true, decide_eq_true_eq] at hblank
    rcases hblank with ((rfl | rfl) | rfl) | rfl <;> cases h

theorem starts_number {p : NumberParts} (hp : p.Regular) : Starts (number p.text).chars := by
  obtain ⟨c, cs, hcs, hc⟩ := hp.starts
  refine ⟨c, cs, hcs, isBlank_of_number hc, ?_⟩
  rintro rfl
  rcases hc with h | h <;> cases h

theorem starts_ofNat (n : Nat) : Starts (ofNat n).chars := by
  rw [chars_ofNat]
  exact starts_number (regular_wholeParts n)

theorem starts_string (s : String) : Starts (string s).chars :=
  ⟨'"', _, rfl, by decide, by decide⟩

theorem reads_wordFor (expected : String) {bound n : Nat} (h : n < bound)
    (hbound : bound ≤ 0x10000000000000000) : Reads (wordFor expected bound) (ofNat n) n where
  starts := starts_ofNat n
  run rest hrest := by
    have hnumber := run_numberParts (regular_wholeParts n) hrest
    obtain ⟨c, cs, hcs, hc⟩ := (regular_wholeParts n).starts
    have hpeek : peek.run ((wholeParts n).text.toList ++ rest) =
        .ok (some c, (wholeParts n).text.toList ++ rest) := by
      rw [hcs]
      exact run_peek_cons (isBlank_of_number hc) _
    have hnumeral : (wholeParts n).numeral = .ok (.integer n) := by
      rw [NumberParts.numeral, word?_wholeParts (by omega)]
    have hread : (numeralFor expected).run ((wholeParts n).text.toList ++ rest) =
        .ok (.integer n, rest) := by
      rw [numeralFor, run_bind_of hpeek]
      simp only [hc, if_true]
      rw [run_bind_of hnumber, hnumeral]
      rfl
    have hint : 0 ≤ (n : Int) ∧ (n : Int) < bound := by omega
    rw [chars_ofNat, wordFor, run_bind_of hread]
    simp only [hint, and_self, if_true]
    rfl

theorem reads_boolFor (expected : String) (b : Bool) : Reads (boolFor expected) (bool b) b where
  starts := by cases b <;> exact ⟨_, _, rfl, by decide, by decide⟩
  run rest _ := by
    cases b with
    | true =>
      have hident : (ident ['r', 'u', 'e']).run ('r' :: 'u' :: 'e' :: rest) = .ok ((), rest) :=
        run_ident ['r', 'u', 'e'] rest
      change (boolFor expected).run ('t' :: 'r' :: 'u' :: 'e' :: rest) = .ok (true, rest)
      rw [boolFor, run_bind_of (run_peek_cons (by decide) _)]
      simp only [if_true]
      rw [run_bind_of (run_skip _ _), run_bind_of hident]
      rfl
    | false =>
      have hident : (ident ['a', 'l', 's', 'e']).run ('a' :: 'l' :: 's' :: 'e' :: rest) =
          .ok ((), rest) := run_ident ['a', 'l', 's', 'e'] rest
      change (boolFor expected).run ('f' :: 'a' :: 'l' :: 's' :: 'e' :: rest) = .ok (false, rest)
      rw [boolFor, run_bind_of (run_peek_cons (by decide) _)]
      simp only [Char.reduceEq, if_false, if_true]
      rw [run_bind_of (run_skip _ _), run_bind_of hident]
      rfl

theorem reads_stringFor (expected s : String) : Reads (stringFor expected) (string s) s where
  starts := starts_string s
  run rest _ := run_stringFor expected s rest

/-! ## Amounts -/

theorem amountOfString_text (a : Amount) : amountOfString a.text = .ok a := by
  rw [amountOfString, amountOfText?, Amount.text, intOfDigits?_toString]
  simp

theorem reads_scanAmount (a : Amount) (depth : Nat) :
    Reads (scanAmount depth) (string a.text) a where
  starts := starts_string _
  run rest _ := by
    have hbody := run_stringBody a.text rest
    rw [chars, quoted_append, scanAmount, run_bind_of (run_peek_cons (by decide) _)]
    simp only [Char.reduceEq, Char.reduceIsDigit, Bool.false_eq_true, or_self, if_false, if_true]
    rw [run_bind_of (run_skip _ _), run_bind_of hbody, amountOfString_text]
    rfl

/-! ## Codecs -/

namespace Codec

variable {α β : Type}

/-- What the codec writes for `a` is read back where lists and objects may nest `depth` deep. -/
def ReadsBack (c : Codec α) (depth : Nat) (a : α) : Prop :=
  Reads (c.read depth) (c.write a) a

/-- All values are read back wherever lists and objects may nest `levels` deep. -/
def Faithful (c : Codec α) (levels : Nat) : Prop :=
  ∀ a depth, levels ≤ depth → c.ReadsBack depth a

theorem Faithful.mono {c : Codec α} {m n : Nat} (h : c.Faithful m) (hmn : m ≤ n) : c.Faithful n :=
  fun a depth hdepth => h a depth (Nat.le_trans hmn hdepth)

theorem ofText_text_eq (c : Codec α) (a : α) :
    c.ofText (c.text a) =
      (do let a ← c.read maxDepth; endText; pure a : Scan α).run' (c.write a).chars := by
  rw [ofText, text, Json.text, Reader.read, String.toList_ofList]

theorem ofText_text {c : Codec α} {a : α} (h : c.ReadsBack maxDepth a) :
    c.ofText (c.text a) = .ok a := by
  have hvalue := h.run [] trivial
  rw [List.append_nil] at hvalue
  have hend : endText.run [] = .ok ((), []) := rfl
  have hread : (do let a ← c.read maxDepth; endText; pure a : Scan α).run (c.write a).chars =
      .ok (a, []) := by
    rw [run_bind_of hvalue, run_bind_of hend]
    rfl
  rw [ofText_text_eq]
  exact congrArg (Except.map Prod.fst) hread

theorem Faithful.text_injective {c : Codec α} (h : c.Faithful maxDepth) :
    Function.Injective c.text := by
  intro a b hab
  have ha := ofText_text (h a maxDepth (Nat.le_refl _))
  rw [hab, ofText_text (h b maxDepth (Nat.le_refl _))] at ha
  exact (Except.ok.inj ha).symm

theorem faithful_string : string.Faithful 0 :=
  fun s _ _ => reads_stringFor "a string" s

theorem faithful_bool : bool.Faithful 0 :=
  fun b _ _ => reads_boolFor "a boolean" b

theorem faithful_amount : amount.Faithful 0 :=
  fun a depth _ => reads_scanAmount a depth

theorem ReadsBack.map {c : Codec α} {f : α → β} {g : β → α} {depth : Nat} {b : β}
    (h : c.ReadsBack depth (g b)) (hfg : f (g b) = b) : (c.map f g).ReadsBack depth b where
  starts := h.starts
  run rest hrest := (run_map_of (h.run rest hrest)).trans (by rw [hfg])

theorem Faithful.map {c : Codec α} {f : α → β} {g : β → α} {levels : Nat} (h : c.Faithful levels)
    (hfg : Function.LeftInverse f g) : (c.map f g).Faithful levels :=
  fun b depth hdepth => (h (g b) depth hdepth).map (hfg b)

theorem faithful_word32 : word32.Faithful 0 := fun n _ _ =>
  have h := reads_wordFor "u32" n.toNat_lt_size (by decide)
  ⟨h.starts, fun rest hrest => (run_map_of (h.run rest hrest)).trans (by simp)⟩

theorem faithful_word64 : word64.Faithful 0 := fun n _ _ =>
  have h := reads_wordFor "u64" n.toNat_lt_size (by decide)
  ⟨h.starts, fun rest hrest => (run_map_of (h.run rest hrest)).trans (by simp)⟩

theorem faithful_parsed {expected : String} {parse : String → Except Error α} {text : α → String}
    (h : ∀ a, parse (text a) = .ok a) : (parsed expected parse text).Faithful 0 := by
  intro a depth _
  have hstring := reads_stringFor expected (text a)
  refine ⟨hstring.starts, fun rest hrest => ?_⟩
  change (Reader.parsed expected parse depth).run ((Json.string (text a)).chars ++ rest) =
    .ok (a, rest)
  rw [Reader.parsed, run_bind_of (hstring.run rest hrest), h]
  rfl

theorem faithful_choice {names : List (String × α)} {name : α → String}
    (h : ∀ a, names.lookup (name a) = some a) : (choice names name).Faithful 0 := by
  intro a depth _
  have hname := reads_stringFor "variant identifier" (name a)
  refine ⟨hname.starts, fun rest hrest => ?_⟩
  have hpeek : peek.run ((Json.string (name a)).chars ++ rest) =
      .ok (some '"', (Json.string (name a)).chars ++ rest) := by
    rw [chars, quoted_append]
    exact run_peek_cons (by decide) _
  change (Reader.choice names depth).run ((Json.string (name a)).chars ++ rest) = .ok (a, rest)
  rw [Reader.choice, Reader.variant, run_bind_of hpeek]
  simp only [if_true]
  rw [Reader.variantName, run_bind_of (hname.run rest hrest)]
  simp only [h]
  rfl

/-- A value that may be missing is told from one that is there by the first letter. -/
theorem Faithful.optional {c : Codec α} {levels : Nat} (h : c.Faithful levels)
    (hnull : ∀ a, (c.write a).chars.head? ≠ some 'n') : c.optional.Faithful levels := by
  rintro (_ | a) depth hdepth
  · refine ⟨⟨'n', _, rfl, by decide, by decide⟩, fun rest _ => ?_⟩
    have hident : (ident ['u', 'l', 'l']).run ('u' :: 'l' :: 'l' :: rest) = .ok ((), rest) :=
      run_ident ['u', 'l', 'l'] rest
    change (Reader.optional c.read depth).run ('n' :: 'u' :: 'l' :: 'l' :: rest) = .ok (none, rest)
    rw [Reader.optional, run_bind_of (run_peek_cons (by decide) _)]
    simp only [if_true]
    rw [run_bind_of (run_skip _ _), run_bind_of hident]
    rfl
  · have ha := h a depth hdepth
    refine ⟨ha.starts, fun rest hrest => ?_⟩
    obtain ⟨ch, cs, hcs, hblank, -⟩ := ha.starts
    have hpeek : peek.run ((c.write a).chars ++ rest) =
        .ok (some ch, (c.write a).chars ++ rest) := by
      rw [hcs]
      exact run_peek_cons hblank _
    have hfirst : ¬ some ch = some 'n' := by
      rintro heq
      exact hnull a (by rw [hcs]; exact heq)
    change (Reader.optional c.read depth).run ((c.write a).chars ++ rest) = .ok (some a, rest)
    rw [Reader.optional, run_bind_of hpeek]
    simp only [hfirst, if_false]
    exact run_map_of (ha.run rest hrest)

theorem Faithful.list {c : Codec α} {levels : Nat} (h : c.Faithful levels) :
    c.list.Faithful (levels + 1) := by
  rintro as (_ | depth) hdepth
  · exact absurd hdepth (by omega)
  have hitems : List.Forall₂ (Reads (c.read depth)) (as.map c.write) as := by
    rw [List.forall₂_map_left_iff, List.forall₂_same]
    exact fun a _ => h a depth (by omega)
  refine ⟨⟨'[', _, rfl, by decide, by decide⟩, fun rest _ => ?_⟩
  have htext : (Json.array (as.map c.write)).chars ++ rest =
      '[' :: (itemChars (as.map c.write) ++ ']' :: rest) := by
    simp [chars]
  change (Reader.list c.read (depth + 1)).run ((Json.array (as.map c.write)).chars ++ rest) =
    .ok (as, rest)
  rw [htext, Reader.list, run_bind_of (run_peek_cons (by decide) _)]
  simp only [if_true]
  rw [run_bind_of (run_skip _ _), run_bind_of (run_items hitems rest),
    run_bind_of (run_endList rest)]
  rfl

theorem readsBack_record {form : RecordForm} {ofValues : Values form.fields → α}
    {toValues : α → Values form.fields} {a : α} {depth : Nat} (hinverse : ofValues (toValues a) = a)
    (hnames : (form.fields.map Field.name).Nodup)
    (h : (toValues a).ReadBack depth form.fields) :
    (form.codec ofValues toValues).ReadsBack (depth + 1) a := by
  have hrecord := form.reads (toValues a) hnames h
  exact ⟨hrecord.starts, fun rest hrest =>
    (run_map_of (hrecord.run rest hrest)).trans (by rw [hinverse])⟩

theorem readBack_of_faithful {levels depth : Nat} (hdepth : levels ≤ depth) : (fs : List Field) →
    (vs : Values fs) → (∀ f ∈ fs, f.codec.Faithful levels) → vs.ReadBack depth fs
  | [], _, _ => trivial
  | f :: fs, (v, vs), h =>
    ⟨h f List.mem_cons_self v depth hdepth,
      readBack_of_faithful hdepth fs vs fun g hg => h g (List.mem_cons_of_mem f hg)⟩

theorem faithful_record {form : RecordForm} {ofValues : Values form.fields → α}
    {toValues : α → Values form.fields} {levels : Nat}
    (hinverse : Function.LeftInverse ofValues toValues)
    (hnames : (form.fields.map Field.name).Nodup)
    (h : form.fields.Forall fun f => f.codec.Faithful levels) :
    (form.codec ofValues toValues).Faithful (levels + 1) := by
  rintro a (_ | depth) hdepth
  · exact absurd hdepth (by omega)
  exact readsBack_record (hinverse a) hnames
    (readBack_of_faithful (Nat.le_of_succ_le_succ hdepth) form.fields (toValues a)
      (List.forall_iff_forall_mem.mp h))

/-! ## Values that may be missing -/

theorem head?_ofNat_ne (n : Nat) : (ofNat n).chars.head? ≠ some 'n' := by
  obtain ⟨c, cs, hcs, hc⟩ := (regular_wholeParts n).starts
  rw [chars_ofNat, hcs]
  rintro ⟨⟩
  rcases hc with h | h <;> cases h

theorem faithful_optional_word64 : word64.optional.Faithful 0 :=
  faithful_word64.optional fun n => head?_ofNat_ne n.toNat

theorem faithful_optional_amount : amount.optional.Faithful 0 :=
  faithful_amount.optional fun a => by simp [amount, chars, quoted]

end Codec

end EventIndex.Json
