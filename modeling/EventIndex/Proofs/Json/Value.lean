import EventIndex.Proofs.Json.Formed

/-! # Values read back

A value that was read from a text is written and read back as it was, every number with its own
digits. It must leave room for the lists and objects around it, and no object of it may be taken for
something else. -/

namespace EventIndex.Json

/-! ## Depth and objects -/

mutual

/-- How deep lists and objects nest. -/
def depth : Json → Nat
  | array items => depthOfItems items + 1
  | object fields => depthOfFields fields + 1
  | _ => 0

def depthOfItems : List Json → Nat
  | [] => 0
  | v :: vs => max v.depth (depthOfItems vs)

def depthOfFields : List (String × Json) → Nat
  | [] => 0
  | (_, v) :: fields => max v.depth (depthOfFields fields)

end

mutual

/-- The objects in the value, each by its fields. -/
def objects : Json → List (List (String × Json))
  | array items => objectsOfItems items
  | object fields => fields :: objectsOfFields fields
  | _ => []

def objectsOfItems : List Json → List (List (String × Json))
  | [] => []
  | v :: vs => v.objects ++ objectsOfItems vs

def objectsOfFields : List (String × Json) → List (List (String × Json))
  | [] => []
  | (_, v) :: fields => v.objects ++ objectsOfFields fields

end

/-- The value can stand in a text where lists and objects may still nest `levels` deep, and no
object of it is taken for anything else. Fields are sorted, so the first one has the least name. -/
structure Plain (v : Json) (levels : Nat) : Prop where
  depth_le : v.depth ≤ levels
  numberKey_not_mem : ∀ fields ∈ v.objects, numberKey ∉ fields.map Prod.fst
  textKey_not_first : ∀ fields ∈ v.objects, (fields.map Prod.fst).head? ≠ some textKey

theorem depth_le_depthOfItems {v : Json} {vs : List Json} (h : v ∈ vs) :
    v.depth ≤ depthOfItems vs := by
  induction vs with
  | nil => cases h
  | cons w vs ih =>
    rw [depthOfItems]
    rcases List.mem_cons.mp h with rfl | h
    · exact Nat.le_max_left _ _
    · exact (ih h).trans (Nat.le_max_right _ _)

theorem depth_le_depthOfFields {x : String × Json} {fields : List (String × Json)}
    (h : x ∈ fields) : x.2.depth ≤ depthOfFields fields := by
  induction fields with
  | nil => cases h
  | cons y fields ih =>
    rw [depthOfFields]
    rcases List.mem_cons.mp h with rfl | h
    · exact Nat.le_max_left _ _
    · exact (ih h).trans (Nat.le_max_right _ _)

theorem objects_subset_objectsOfItems {v : Json} {vs : List Json} (h : v ∈ vs) :
    v.objects ⊆ objectsOfItems vs := by
  induction vs with
  | nil => cases h
  | cons w vs ih =>
    rw [objectsOfItems]
    rcases List.mem_cons.mp h with rfl | h
    · exact List.subset_append_left _ _
    · exact List.Subset.trans (ih h) (List.subset_append_right _ _)

theorem objects_subset_objectsOfFields {x : String × Json} {fields : List (String × Json)}
    (h : x ∈ fields) : x.2.objects ⊆ objectsOfFields fields := by
  induction fields with
  | nil => cases h
  | cons y fields ih =>
    rw [objectsOfFields]
    rcases List.mem_cons.mp h with rfl | h
    · exact List.subset_append_left _ _
    · exact List.Subset.trans (ih h) (List.subset_append_right _ _)

theorem Plain.item {v : Json} {vs : List Json} {levels : Nat} (h : (array vs).Plain (levels + 1))
    (hv : v ∈ vs) : v.Plain levels where
  depth_le := (depth_le_depthOfItems hv).trans (Nat.le_of_succ_le_succ h.depth_le)
  numberKey_not_mem fs hfs := h.numberKey_not_mem fs (objects_subset_objectsOfItems hv hfs)
  textKey_not_first fs hfs := h.textKey_not_first fs (objects_subset_objectsOfItems hv hfs)

theorem Plain.field {x : String × Json} {fields : List (String × Json)} {levels : Nat}
    (h : (object fields).Plain (levels + 1)) (hx : x ∈ fields) : x.2.Plain levels where
  depth_le := (depth_le_depthOfFields hx).trans (Nat.le_of_succ_le_succ h.depth_le)
  numberKey_not_mem fs hfs :=
    h.numberKey_not_mem fs (List.mem_cons_of_mem _ (objects_subset_objectsOfFields hx hfs))
  textKey_not_first fs hfs :=
    h.textKey_not_first fs (List.mem_cons_of_mem _ (objects_subset_objectsOfFields hx hfs))

/-! ## Reading values back -/

/-- Further fields of an object are put behind those that come before them. -/
theorem course_add {add : List (String × Json) → String → Scan (List (String × Json))}
    {before fields : List (String × Json)}
    (hadd : ∀ fs, ∀ x ∈ fields, FieldReads add fs x (insertField x.1 x.2 fs))
    (hsorted : ((before ++ fields).map Prod.fst).Pairwise (· < ·)) :
    Course (FieldReads add) before fields (before ++ fields) := by
  induction fields generalizing before with
  | nil =>
    rw [List.append_nil]
    exact .nil before
  | cons x fields ih =>
    have hlast : insertField x.1 x.2 before = before ++ [x] := by
      apply insertField_of_forall_lt
      intro y hy
      rw [List.map_append, List.pairwise_append] at hsorted
      exact hsorted.2.2 y.1 (List.mem_map_of_mem hy) x.1 List.mem_cons_self
    have hsorted' : ((before ++ [x] ++ fields).map Prod.fst).Pairwise (· < ·) := by
      simpa using hsorted
    have hmore := ih (fun fs y hy => hadd fs y (List.mem_cons_of_mem x hy)) hsorted'
    rw [← hlast] at hmore
    rw [hlast, List.append_assoc] at hmore
    exact .cons (hlast ▸ hadd before x List.mem_cons_self) hmore

theorem starts_array (items : List Json) : Starts (array items).chars :=
  ⟨'[', _, rfl, by decide, by decide⟩

variable (embedded : String → Except Error Json) (levels : Nat)

theorem reads_null : Reads (valueWith embedded levels) null null where
  starts := ⟨'n', _, rfl, by decide, by decide⟩
  run rest _ := by
    have hident : (ident ['u', 'l', 'l']).run ('u' :: 'l' :: 'l' :: rest) = .ok ((), rest) :=
      run_ident ['u', 'l', 'l'] rest
    change (valueWith embedded levels).run ('n' :: 'u' :: 'l' :: 'l' :: rest) = .ok (null, rest)
    rw [valueWith.eq_def, run_bind_of (run_peek_cons (by decide) _)]
    simp only [if_true]
    rw [run_bind_of (run_skip _ _), run_bind_of hident]
    rfl

theorem reads_bool (b : Bool) : Reads (valueWith embedded levels) (bool b) (bool b) where
  starts := by cases b <;> exact ⟨_, _, rfl, by decide, by decide⟩
  run rest hrest := by
    cases b with
    | true =>
      have hident : (ident ['r', 'u', 'e']).run ('r' :: 'u' :: 'e' :: rest) = .ok ((), rest) :=
        run_ident ['r', 'u', 'e'] rest
      change (valueWith embedded levels).run ('t' :: 'r' :: 'u' :: 'e' :: rest) =
        .ok (bool true, rest)
      rw [valueWith.eq_def, run_bind_of (run_peek_cons (by decide) _)]
      simp only [Char.reduceEq, if_false, if_true]
      rw [run_bind_of (run_skip _ _), run_bind_of hident]
      rfl
    | false =>
      have hident : (ident ['a', 'l', 's', 'e']).run ('a' :: 'l' :: 's' :: 'e' :: rest) =
          .ok ((), rest) := run_ident ['a', 'l', 's', 'e'] rest
      change (valueWith embedded levels).run ('f' :: 'a' :: 'l' :: 's' :: 'e' :: rest) =
        .ok (bool false, rest)
      rw [valueWith.eq_def, run_bind_of (run_peek_cons (by decide) _)]
      simp only [Char.reduceEq, if_false, if_true]
      rw [run_bind_of (run_skip _ _), run_bind_of hident]
      rfl

theorem reads_number {p : NumberParts} (hp : p.Regular) :
    Reads (valueWith embedded levels) (number p.text) (number p.text) where
  starts := starts_number hp
  run rest hrest := by
    obtain ⟨c, cs, hcs, hc⟩ := hp.starts
    have hpeek : peek.run (p.text.toList ++ rest) = .ok (some c, p.text.toList ++ rest) := by
      rw [hcs]
      exact run_peek_cons (isBlank_of_number hc) _
    have hword : c ≠ 'n' ∧ c ≠ 't' ∧ c ≠ 'f' := by
      refine ⟨?_, ?_, ?_⟩ <;> rintro rfl <;> simp at hc
    rw [chars, valueWith.eq_def, run_bind_of hpeek]
    simp only [hword, hc, if_false, if_true]
    rw [run_bind_of (run_numberParts hp hrest)]
    rfl

theorem reads_string (s : String) : Reads (valueWith embedded levels) (string s) (string s) where
  starts := starts_string s
  run rest _ := by
    rw [chars, quoted_append, valueWith.eq_def, run_bind_of (run_peek_cons (by decide) _)]
    simp only [Char.reduceEq, Char.reduceIsDigit, Bool.false_eq_true, or_self, if_false, if_true]
    rw [run_bind_of (run_skip _ _), run_bind_of (run_stringBody s rest)]
    rfl

variable {embedded levels}

theorem reads_array {items : List Json}
    (h : ∀ v ∈ items, Reads (valueWith embedded levels) v v) :
    Reads (valueWith embedded (levels + 1)) (array items) (array items) where
  starts := starts_array items
  run rest _ := by
    have htext : (array items).chars ++ rest = '[' :: (itemChars items ++ ']' :: rest) := by
      simp [chars]
    have hitems := run_items (List.forall₂_same.mpr h) rest
    rw [htext, valueWith.eq_def, run_bind_of (run_peek_cons (by decide) _)]
    simp only [Char.reduceEq, Char.reduceIsDigit, Bool.false_eq_true, or_self, if_false, if_true]
    rw [run_bind_of (run_skip _ _), run_bind_of hitems, run_bind_of (run_endList rest)]
    rfl

theorem fieldReads_addField {x : String × Json} (h : Reads (valueWith embedded levels) x.2 x.2)
    (before : List (String × Json)) :
    FieldReads (addField embedded levels) before x (insertField x.1 x.2 before) := by
  intro rest hrest
  rw [addField, run_bind_of (run_colon _), run_bind_of (h.run rest hrest)]
  rfl

theorem reads_object {fields : List (String × Json)}
    (hsorted : (fields.map Prod.fst).Pairwise (· < ·))
    (hnumberKey : numberKey ∉ fields.map Prod.fst)
    (htextKey : (fields.map Prod.fst).head? ≠ some textKey)
    (h : ∀ x ∈ fields, Reads (valueWith embedded levels) x.2 x.2) :
    Reads (valueWith embedded (levels + 1)) (object fields) (object fields) where
  starts := starts_object fields
  run rest _ := by
    have htext : (object fields).chars ++ rest =
        '\x7b' :: (fieldChars fields ++ '\x7d' :: rest) := by
      simp [chars]
    have hclose (fs : List (String × Json)) :
        (do endObject; pure (object fs) : Scan Json).run ('\x7d' :: rest) =
          .ok (object fs, rest) := by
      rw [run_bind_of (run_endObject rest)]
      rfl
    rw [htext, valueWith.eq_def, run_bind_of (run_peek_cons (by decide) _)]
    simp only [Char.reduceEq, Char.reduceIsDigit, Bool.false_eq_true, or_self, if_false, if_true]
    rw [run_bind_of (run_skip _ _)]
    cases fields with
    | nil =>
      rw [fieldChars, List.nil_append, run_bind_of (run_hasKey_close true rest)]
      exact hclose []
    | cons x fields =>
      obtain ⟨k, v⟩ := x
      have hkey := run_hasKey k true (':' :: (v.chars ++ (moreFields fields ++ '\x7d' :: rest)))
      simp only [if_true, List.nil_append] at hkey
      have hnumber : k ≠ numberKey := fun heq => hnumberKey (heq ▸ List.mem_cons_self)
      have hraw : k ≠ textKey := fun heq => htextKey (congrArg some heq)
      -- The first field is read by itself, and the others are put behind it.
      have hfirst : (addField embedded levels [] k).run
          (':' :: (v.chars ++ (moreFields fields ++ '\x7d' :: rest))) =
          .ok ([(k, v)], moreFields fields ++ '\x7d' :: rest) :=
        fieldReads_addField (h (k, v) List.mem_cons_self) [] _ (ends_moreFields fields rest)
      have hcourse : Course (FieldReads (addField embedded levels)) [(k, v)] fields
          ([(k, v)] ++ fields) :=
        course_add (fun fs x hx => fieldReads_addField (h x (List.mem_cons_of_mem _ hx)) fs)
          hsorted
      have hmore := run_foldFields hcourse false rest
      simp only [Bool.false_eq_true, if_false] at hmore
      rw [fieldChars_cons]
      simp only [List.append_assoc, List.cons_append]
      rw [run_bind_of hkey]
      simp only [if_true]
      rw [run_bind_of (run_stringBody k _), if_neg hnumber, if_neg hraw]
      change (addField embedded levels [] k >>= fun first =>
        object <$> foldFields (addField embedded levels) false first >>= fun v => do
          endObject
          pure v).run _ = _
      rw [run_bind_of hfirst, run_bind_of (run_map_of hmore)]
      exact hclose ((k, v) :: fields)

theorem Formed.reads {v : Json} (hv : v.Formed) {levels : Nat} (h : v.Plain levels) :
    Reads (valueWith embedded levels) v v := by
  induction hv generalizing levels with
  | null => exact reads_null embedded levels
  | bool b => exact reads_bool embedded levels b
  | number hp => exact reads_number embedded levels hp
  | string s => exact reads_string embedded levels s
  | array _ ih =>
    cases levels with
    | zero => exact absurd h.depth_le (Nat.not_succ_le_zero _)
    | succ levels => exact reads_array fun v hv => ih v hv (h.item hv)
  | @object fields sorted _ _ ih =>
    cases levels with
    | zero => exact absurd h.depth_le (Nat.not_succ_le_zero _)
    | succ levels =>
      exact reads_object sorted (h.numberKey_not_mem fields List.mem_cons_self)
        (h.textKey_not_first fields List.mem_cons_self) fun x hx => ih x hx (h.field hx)

/-- A value that was read from a text is read back where lists and objects may nest as deep. -/
theorem reads_value {s : String} {v : Json} (hv : ofText s = .ok v) {levels : Nat}
    (h : v.Plain levels) : Reads (value levels) v v := by
  have hreads (embedded : String → Except Error Json) : Reads (valueWith embedded levels) v v :=
    (formed_of_ofText hv).reads h
  refine ⟨(hreads ofText).starts, fun rest hrest => ?_⟩
  rw [value, run_bind_of (s := get) rfl]
  exact (hreads _).run rest hrest

/-! ## Values on one line -/

def OneLine (v : Json) : Prop :=
  '\n' ∉ v.chars

instance (v : Json) : Decidable v.OneLine :=
  inferInstanceAs (Decidable ('\n' ∉ v.chars))

theorem feed_not_mem_escapeChar (c : Char) : '\n' ∉ escapeChar c := by
  have hdigit : ∀ d < 16, Nat.digitChar d ≠ '\n' := by decide
  unfold escapeChar
  split
  case h_8 hfeed _ _ =>
    split
    · next hsmall =>
      have hhigh := hdigit (c.toNat / 16) (by omega)
      have hlow := hdigit (c.toNat % 16) (by omega)
      simp [hhigh.symm, hlow.symm]
    · simpa using Ne.symm hfeed
  all_goals decide

theorem feed_not_mem_quoted (s : String) : '\n' ∉ quoted s := by
  have hchars : '\n' ∉ s.toList.flatMap escapeChar := by
    rw [List.mem_flatMap]
    rintro ⟨c, -, hc⟩
    exact feed_not_mem_escapeChar c hc
  simp [quoted, hchars]

theorem oneLine_string (s : String) : (string s).OneLine :=
  feed_not_mem_quoted s

theorem oneLine_number {p : NumberParts} (hp : p.Regular) : (number p.text).OneLine := by
  have hdigits {cs : List Char} (h : Text.IsDigits cs) : '\n' ∉ cs :=
    fun hmem => by cases h.2 _ hmem
  have hwhole := hdigits hp.whole
  have hfraction : '\n' ∉ p.fractionChars := by
    rw [NumberParts.fractionChars]
    cases h : p.fraction with
    | none => simp
    | some ds => simpa using hdigits (hp.fraction ds h)
  have hexponent : '\n' ∉ p.exponentChars := by
    rw [NumberParts.exponentChars]
    cases h : p.exponent with
    | none => simp
    | some x => cases hx : x.1 <;> simpa [hx] using hdigits (hp.exponent x h)
  rw [OneLine, chars, p.toList_text]
  cases p.negative <;> simp [hwhole, hfraction, hexponent]

theorem oneLine_ofNat (n : Nat) : (ofNat n).OneLine := by
  rw [OneLine, chars_ofNat]
  exact oneLine_number (regular_wholeParts n)

theorem oneLine_array {items : List Json} (h : ∀ v ∈ items, v.OneLine) : (array items).OneLine := by
  have hitems : '\n' ∉ itemChars items := by
    induction items with
    | nil => simp [itemChars]
    | cons v vs ih =>
      obtain ⟨hv, hvs⟩ := List.forall_mem_cons.mp h
      rw [OneLine] at hv
      have hmore := ih hvs
      rw [itemChars_cons]
      cases vs <;> simp_all [moreItems]
  simp [OneLine, chars, hitems]

theorem oneLine_object {fields : List (String × Json)} (h : ∀ x ∈ fields, x.2.OneLine) :
    (object fields).OneLine := by
  have hfields : '\n' ∉ fieldChars fields := by
    induction fields with
    | nil => simp [fieldChars]
    | cons x fields ih =>
      obtain ⟨hx, hmore⟩ := List.forall_mem_cons.mp h
      rw [OneLine] at hx
      have hrest := ih hmore
      have hname := feed_not_mem_quoted x.1
      rw [fieldChars_cons]
      cases fields <;> simp_all [moreFields]
  simp [OneLine, chars, hfields]

theorem Formed.oneLine {v : Json} (hv : v.Formed) : v.OneLine := by
  induction hv with
  | null => simp [OneLine, chars]
  | bool b => cases b <;> simp [OneLine, chars]
  | number hp => exact oneLine_number hp
  | string s => exact oneLine_string s
  | array _ ih => exact oneLine_array ih
  | object _ _ _ ih => exact oneLine_object ih

end EventIndex.Json
