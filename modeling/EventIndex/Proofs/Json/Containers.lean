import EventIndex.Json.Record
import EventIndex.Proofs.Json.Tokens
import Mathlib.Data.List.Forall2

/-! # Lists and objects

A scan that reads the items of a list or the fields of an object back reads the whole back. A record
is read back by its fields, if these have different names. -/

namespace EventIndex.Json

/-! ## Values -/

/-- The text begins with a character that is neither skipped nor closes a list. -/
def Starts (cs : List Char) : Prop :=
  ∃ c rest, cs = c :: rest ∧ isBlank c = false ∧ c ≠ ']'

/-- The scan takes `a` from the text of `v` and stops where the value ends. -/
structure Reads {α : Type} (s : Scan α) (v : Json) (a : α) : Prop where
  starts : Starts v.chars
  run : ∀ rest, Ends rest → s.run (v.chars ++ rest) = .ok (a, rest)

variable {α σ : Type}

/-! ## Lists -/

/-- What follows an item: a comma and the others, if there are any. -/
def moreItems : List Json → List Char
  | [] => []
  | vs => ',' :: itemChars vs

theorem itemChars_cons (v : Json) (vs : List Json) :
    itemChars (v :: vs) = v.chars ++ moreItems vs := by
  cases vs <;> simp [itemChars, moreItems]

theorem ends_moreItems (vs : List Json) (rest : List Char) :
    Ends (moreItems vs ++ ']' :: rest) := by
  cases vs <;> simp [moreItems, Ends]

theorem Reads.run_peek {s : Scan α} {v : Json} {a : α} (h : Reads s v a) (rest : List Char) :
    ∃ c, c ≠ ']' ∧ peek.run (v.chars ++ rest) = .ok (some c, v.chars ++ rest) := by
  obtain ⟨c, cs, hcs, hblank, hc⟩ := h.starts
  rw [hcs]
  exact ⟨c, hc, run_peek_cons hblank _⟩

theorem run_hasItem {s : Scan α} {v : Json} {a : α} (h : Reads s v a) (first : Bool)
    (rest : List Char) :
    (hasItem first).run ((if first then [] else [',']) ++ (v.chars ++ rest)) =
      .ok (true, v.chars ++ rest) := by
  obtain ⟨c, hc, hpeek⟩ := h.run_peek rest
  rw [hasItem]
  cases first with
  | true =>
    simp only [if_true, List.nil_append]
    rw [run_bind_of hpeek]
    simp only [hc, if_false]
    rfl
  | false =>
    simp only [Bool.false_eq_true, if_false, List.singleton_append]
    rw [run_bind_of (run_peek_cons (by decide) _)]
    simp only [Char.reduceEq, if_false, if_true]
    rw [run_bind_of (run_skip _ _), run_bind_of hpeek]
    simp only [hc, if_false]
    rfl

theorem run_hasItem_close (first : Bool) (rest : List Char) :
    (hasItem first).run (']' :: rest) = .ok (false, ']' :: rest) := by
  rw [hasItem, run_bind_of (run_peek_cons (by decide) _)]
  rfl

theorem run_itemsUpTo {item : Scan α} {vs : List Json} {as : List α}
    (h : List.Forall₂ (Reads item) vs as) {fuel : Nat} (hfuel : vs.length < fuel) (first : Bool)
    (rest : List Char) :
    (itemsUpTo item fuel first).run
      ((if first then itemChars vs else moreItems vs) ++ ']' :: rest) = .ok (as, ']' :: rest) := by
  induction h generalizing fuel first with
  | nil =>
    obtain ⟨fuel, rfl⟩ : ∃ n, fuel = n + 1 := ⟨fuel - 1, by simp at hfuel; omega⟩
    have htext : (if first then itemChars [] else moreItems []) ++ ']' :: rest = ']' :: rest := by
      cases first <;> rfl
    rw [htext, itemsUpTo, run_bind_of (run_hasItem_close first rest)]
    rfl
  | @cons v a vs as hv hvs ih =>
    obtain ⟨fuel, rfl⟩ : ∃ n, fuel = n + 1 := ⟨fuel - 1, by simp at hfuel; omega⟩
    have htext : (if first then itemChars (v :: vs) else moreItems (v :: vs)) ++ ']' :: rest =
        (if first then [] else [',']) ++ (v.chars ++ (moreItems vs ++ ']' :: rest)) := by
      cases first <;> simp [moreItems, itemChars_cons]
    have hmore := ih (show vs.length < fuel by simpa using hfuel) false
    simp only [Bool.false_eq_true, if_false] at hmore
    rw [htext, itemsUpTo, run_bind_of (run_hasItem hv first _)]
    simp only [if_true]
    rw [run_bind_of (hv.run _ (ends_moreItems vs rest)), run_bind_of hmore]
    rfl

theorem length_le_itemChars {item : Scan α} {vs : List Json} {as : List α}
    (h : List.Forall₂ (Reads item) vs as) : vs.length ≤ (itemChars vs).length := by
  induction h with
  | nil => exact Nat.le_refl _
  | @cons v a vs as hv hvs ih =>
    obtain ⟨c, cs, hcs, -⟩ := hv.starts
    cases vs with
    | nil => simp [itemChars_cons, hcs]
    | cons w vs => simp [itemChars_cons, hcs, moreItems] at ih ⊢; omega

theorem run_items {item : Scan α} {vs : List Json} {as : List α}
    (h : List.Forall₂ (Reads item) vs as) (rest : List Char) :
    (items item).run (itemChars vs ++ ']' :: rest) = .ok (as, ']' :: rest) := by
  have hlength := length_le_itemChars h
  rw [items, run_bind_of (s := get) (a := itemChars vs ++ ']' :: rest) rfl]
  exact run_itemsUpTo h (by simp; omega) true rest

theorem run_endList (rest : List Char) : endList.run (']' :: rest) = .ok ((), rest) := by
  rw [endList, run_bind_of (run_peek_cons (by decide) _)]
  rfl

/-! ## Objects -/

/-- What follows a field: a comma and the others, if there are any. -/
def moreFields : List (String × Json) → List Char
  | [] => []
  | fields => ',' :: fieldChars fields

theorem fieldChars_cons (k : String) (v : Json) (fields : List (String × Json)) :
    fieldChars ((k, v) :: fields) = quoted k ++ ':' :: (v.chars ++ moreFields fields) := by
  cases fields <;> simp [fieldChars, moreFields]

theorem ends_moreFields (fields : List (String × Json)) (rest : List Char) :
    Ends (moreFields fields ++ '\x7d' :: rest) := by
  cases fields <;> simp [moreFields, Ends]

theorem run_colon (rest : List Char) : colon.run (':' :: rest) = .ok ((), rest) := by
  rw [colon, run_bind_of (run_peek_cons (by decide) _)]
  rfl

theorem run_endObject (rest : List Char) : endObject.run ('\x7d' :: rest) = .ok ((), rest) := by
  rw [endObject, run_bind_of (run_peek_cons (by decide) _)]
  rfl

theorem run_hasKey (k : String) (first : Bool) (rest : List Char) :
    (hasKey first).run ((if first then [] else [',']) ++ (quoted k ++ rest)) =
      .ok (true, k.toList.flatMap escapeChar ++ '"' :: rest) := by
  rw [quoted_append, hasKey]
  cases first with
  | true =>
    simp only [if_true, List.nil_append]
    rw [run_bind_of (run_peek_cons (by decide) _)]
    rfl
  | false =>
    simp only [Bool.false_eq_true, if_false, List.singleton_append]
    rw [run_bind_of (run_peek_cons (by decide) _)]
    simp only [Char.reduceEq, if_false, if_true]
    rw [run_bind_of (run_skip _ _), run_bind_of (run_peek_cons (by decide) _)]
    rfl

theorem run_hasKey_close (first : Bool) (rest : List Char) :
    (hasKey first).run ('\x7d' :: rest) = .ok (false, '\x7d' :: rest) := by
  rw [hasKey, run_bind_of (run_peek_cons (by decide) _)]
  rfl

/-- The fields, taken one after the other, lead from one state to another. -/
inductive Course (step : σ → String × Json → σ → Prop) : σ → List (String × Json) → σ → Prop
  | nil (s : σ) : Course step s [] s
  | cons {s s' s'' : σ} {x : String × Json} {fields : List (String × Json)} (hstep : step s x s')
    (hmore : Course step s' fields s'') : Course step s (x :: fields) s''

/-- What is done for a field leads from `s` to `s'` and stops where the value of the field ends. -/
def FieldReads (field : σ → String → Scan σ) (s : σ) (x : String × Json) (s' : σ) : Prop :=
  ∀ rest, Ends rest → (field s x.1).run (':' :: (x.2.chars ++ rest)) = .ok (s', rest)

theorem run_foldFieldsUpTo {field : σ → String → Scan σ} {s s' : σ}
    {fields : List (String × Json)} (h : Course (FieldReads field) s fields s') {fuel : Nat}
    (hfuel : fields.length < fuel) (first : Bool) (rest : List Char) :
    (foldFieldsUpTo field fuel first s).run
      ((if first then fieldChars fields else moreFields fields) ++ '\x7d' :: rest) =
      .ok (s', '\x7d' :: rest) := by
  induction h generalizing fuel first with
  | nil s =>
    obtain ⟨fuel, rfl⟩ : ∃ n, fuel = n + 1 := ⟨fuel - 1, by simp at hfuel; omega⟩
    have htext : (if first then fieldChars [] else moreFields []) ++ '\x7d' :: rest =
        '\x7d' :: rest := by
      cases first <;> rfl
    rw [htext, foldFieldsUpTo, run_bind_of (run_hasKey_close first rest)]
    rfl
  | @cons s s' s'' x fields hstep hmore ih =>
    obtain ⟨k, v⟩ := x
    obtain ⟨fuel, rfl⟩ : ∃ n, fuel = n + 1 := ⟨fuel - 1, by simp at hfuel; omega⟩
    have htext : (if first then fieldChars ((k, v) :: fields) else moreFields ((k, v) :: fields)) ++
          '\x7d' :: rest =
        (if first then [] else [',']) ++
          (quoted k ++ ':' :: (v.chars ++ (moreFields fields ++ '\x7d' :: rest))) := by
      cases first <;> simp [moreFields, fieldChars_cons]
    have hfields := ih (show fields.length < fuel by simpa using hfuel) false
    simp only [Bool.false_eq_true, if_false] at hfields
    rw [htext, foldFieldsUpTo, run_bind_of (run_hasKey k first _)]
    simp only [if_true]
    rw [run_bind_of (run_stringBody k _),
      run_bind_of (hstep _ (ends_moreFields fields rest)), hfields]

theorem length_le_fieldChars (fields : List (String × Json)) :
    fields.length ≤ (fieldChars fields).length := by
  induction fields with
  | nil => exact Nat.le_refl _
  | cons x fields ih =>
    obtain ⟨k, v⟩ := x
    rw [fieldChars_cons]
    cases fields with
    | nil => simp [quoted]
    | cons y fields => simp [quoted, moreFields] at ih ⊢; omega

theorem run_foldFields {field : σ → String → Scan σ} {s s' : σ} {fields : List (String × Json)}
    (h : Course (FieldReads field) s fields s') (first : Bool) (rest : List Char) :
    (foldFields field first s).run
      ((if first then fieldChars fields else moreFields fields) ++ '\x7d' :: rest) =
      .ok (s', '\x7d' :: rest) := by
  have hlength :
      fields.length ≤ (if first then fieldChars fields else moreFields fields).length := by
    have := length_le_fieldChars fields
    cases first <;> cases fields <;> simp [moreFields] at this ⊢ <;> omega
  rw [foldFields, run_bind_of (s := get) rfl]
  exact run_foldFieldsUpTo h (by simp; omega) first rest

/-! ## Records -/

def Values.ReadBack (depth : Nat) : (fs : List Field) → Values fs → Prop
  | [], _ => True
  | f :: fs, (v, vs) => Reads (f.codec.read depth) (f.codec.write v) v ∧ ReadBack depth fs vs

namespace Slots

def full : (fs : List Field) → Values fs → Slots fs
  | [], _ => ()
  | _ :: fs, (v, vs) => (some v, full fs vs)

theorem values_full : (fs : List Field) → (vs : Values fs) → values fs (full fs vs) = .ok vs
  | [], _ => rfl
  | f :: fs, (v, vs) => by
    simp [values, full, values_full fs vs, Except.map]

/-- Filling the slot of a field leads from some slots to others. -/
def FillReads (depth : Nat) (fs : List Field) (slots : Slots fs) (x : String × Json)
    (slots' : Slots fs) : Prop :=
  ∀ rest, Ends rest →
    (fill depth x.1 fs slots).run (':' :: (x.2.chars ++ rest)) = .ok (some slots', rest)

variable {depth : Nat}

theorem course_cons {f : Field} {fs : List Field} (slot : Option f.type) {slots slots' : Slots fs}
    {fields : List (String × Json)} (h : Course (FillReads depth fs) slots fields slots')
    (hname : f.name ∉ fields.map Prod.fst) :
    Course (FillReads depth (f :: fs)) (slot, slots) fields (slot, slots') := by
  induction h with
  | nil slots => exact .nil _
  | @cons slots _ _ x fields hstep hmore ih =>
    simp only [List.map_cons, List.mem_cons, not_or] at hname
    refine .cons ?_ (ih hname.2)
    intro rest hrest
    rw [fill, if_neg (Ne.symm hname.1), run_bind_of (hstep rest hrest)]
    rfl

theorem names_toFields : (fs : List Field) → (vs : Values fs) →
    (Values.toFields fs vs).map Prod.fst = fs.map Field.name
  | [], _ => rfl
  | f :: fs, (_, vs) => congrArg (f.name :: ·) (names_toFields fs vs)

theorem course_full : (fs : List Field) → (vs : Values fs) → (fs.map Field.name).Nodup →
    vs.ReadBack depth fs →
      Course (FillReads depth fs) (empty fs) (Values.toFields fs vs) (full fs vs)
  | [], _, _, _ => .nil _
  | f :: fs, (v, vs), hnames, ⟨hv, hvs⟩ => by
    obtain ⟨hname, hnames⟩ := List.nodup_cons.mp hnames
    have hmore := course_full fs vs hnames hvs
    have hothers := course_cons (f := f) (some v) hmore (by rwa [names_toFields])
    refine .cons (fun rest hrest => ?_) hothers
    simp only [fill, empty, if_true, Option.isSome_none, Bool.false_eq_true, if_false]
    rw [run_bind_of (run_colon _), run_bind_of (hv.run rest hrest)]
    rfl

end Slots

theorem starts_object (fields : List (String × Json)) : Starts (object fields).chars :=
  ⟨'\x7b', _, rfl, by decide, by decide⟩

namespace RecordForm

variable (form : RecordForm) {depth : Nat}

theorem fieldReads {slots slots' : Slots form.fields} {x : String × Json}
    (h : Slots.FillReads depth form.fields slots x slots') :
    FieldReads (form.readField depth) slots x slots' := by
  intro rest hrest
  rw [readField, run_bind_of (h rest hrest)]
  rfl

theorem course {slots slots' : Slots form.fields} {fields : List (String × Json)}
    (h : Course (Slots.FillReads depth form.fields) slots fields slots') :
    Course (FieldReads (form.readField depth)) slots fields slots' := by
  induction h with
  | nil slots => exact .nil slots
  | cons hstep hmore ih => exact .cons (form.fieldReads hstep) ih

/-- A record whose fields read their values back reads its own back. -/
theorem reads (vs : Values form.fields) (hnames : (form.fields.map Field.name).Nodup)
    (h : vs.ReadBack depth form.fields) :
    Reads (form.read (depth + 1)) (object (Values.toFields form.fields vs)) vs where
  starts := starts_object _
  run rest _ := by
    have htext : (object (Values.toFields form.fields vs)).chars ++ rest =
        '\x7b' :: (fieldChars (Values.toFields form.fields vs) ++ '\x7d' :: rest) := by
      simp [chars]
    have hcourse := form.course (Slots.course_full form.fields vs hnames h)
    have hfields := run_foldFields hcourse true rest
    simp only [if_true] at hfields
    rw [htext, read, run_bind_of (run_peek_cons (by decide) _)]
    simp only [Char.reduceEq, if_false, if_true]
    rw [run_bind_of (run_skip _ _), run_bind_of hfields, Slots.values_full]
    dsimp only
    rw [run_bind_of (run_endObject rest)]
    rfl

end RecordForm

end EventIndex.Json
