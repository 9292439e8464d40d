import EventIndex.Proofs.Json.Types
import Mathlib.Data.List.TakeWhile
import Mathlib.Data.String.Basic

/-! # The form of values

A value that was read from a text has a form that not every value has: its numbers are spelled in
parts, and the fields of its objects are sorted. What scans give is followed through the parser. -/

namespace EventIndex.Json

/-- The form of a value that was read from a text: its numbers are spelled in parts, and the fields
of its objects are sorted by name, each name once. No object that stands for a number is left. -/
inductive Formed : Json → Prop
  | null : Formed null
  | bool (b : Bool) : Formed (bool b)
  | number {p : NumberParts} (h : p.Regular) : Formed (number p.text)
  | string (s : String) : Formed (string s)
  | array {items : List Json} (h : ∀ v ∈ items, Formed v) : Formed (array items)
  | object {fields : List (String × Json)} (sorted : (fields.map Prod.fst).Pairwise (· < ·))
    (named : fields.map Prod.fst ≠ [numberKey]) (h : ∀ x ∈ fields, Formed x.2) :
    Formed (object fields)

/-! ## Sorted fields -/

variable {k : String} {v : Json} {fields : List (String × Json)}

private theorem compare_eq_lt {k l : String} : compare k l = .lt ↔ k < l :=
  compareOfLessAndEq_eq_lt

private theorem compare_eq_gt {k l : String} : compare k l = .gt ↔ l < k :=
  Std.OrientedCmp.gt_iff_lt.trans compare_eq_lt

theorem mem_insertField {x : String × Json} (h : x ∈ insertField k v fields) :
    x = (k, v) ∨ x ∈ fields := by
  induction fields with
  | nil => exact .inl (List.mem_singleton.mp h)
  | cons y fields ih =>
    obtain ⟨l, w⟩ := y
    rw [insertField] at h
    split at h
    · exact List.mem_cons.mp h
    · exact (List.mem_cons.mp h).imp_right (List.mem_cons_of_mem _)
    · rcases List.mem_cons.mp h with rfl | h
      · exact .inr List.mem_cons_self
      · exact (ih h).imp_right (List.mem_cons_of_mem _)

theorem pairwise_insertField (h : (fields.map Prod.fst).Pairwise (· < ·)) :
    ((insertField k v fields).map Prod.fst).Pairwise (· < ·) := by
  induction fields with
  | nil => simp [insertField]
  | cons y fields ih =>
    obtain ⟨l, w⟩ := y
    obtain ⟨hl, hfields⟩ := List.pairwise_cons.mp h
    rw [insertField]
    split
    · next hlt =>
      have hkl : k < l := compare_eq_lt.mp hlt
      refine List.pairwise_cons.mpr ⟨?_, h⟩
      intro m hm
      rcases List.mem_cons.mp hm with rfl | hm
      · exact hkl
      · exact hkl.trans (hl m hm)
    · next heq =>
      obtain rfl : k = l := Std.compare_eq_iff_eq.mp heq
      exact h
    · next hgt =>
      have hlk : l < k := compare_eq_gt.mp hgt
      refine List.pairwise_cons.mpr ⟨?_, ih hfields⟩
      intro m hm
      obtain ⟨x, hx, rfl⟩ := List.mem_map.mp hm
      rcases mem_insertField hx with rfl | hx
      · exact hlk
      · exact hl _ (List.mem_map_of_mem hx)

theorem insertField_ne_nil : insertField k v fields ≠ [] := by
  cases fields with
  | nil => simp [insertField]
  | cons y fields =>
    rw [insertField]
    split <;> simp

/-- Only the first field that is put among no others may be the only one afterwards. -/
theorem map_insertField_ne {l : String} (h : fields.map Prod.fst ≠ [l])
    (hempty : fields = [] → k ≠ l) : (insertField k v fields).map Prod.fst ≠ [l] := by
  cases fields with
  | nil => simpa [insertField] using hempty rfl
  | cons y fields =>
    obtain ⟨m, w⟩ := y
    rw [insertField]
    split
    · simp
    · next heq =>
      obtain rfl : k = m := Std.compare_eq_iff_eq.mp heq
      exact h
    · simp [insertField_ne_nil]

theorem insertField_of_forall_lt (h : ∀ x ∈ fields, x.1 < k) :
    insertField k v fields = fields ++ [(k, v)] := by
  induction fields with
  | nil => rfl
  | cons y fields ih =>
    obtain ⟨l, w⟩ := y
    have hgt : compare k l = .gt := compare_eq_gt.mpr (h (l, w) List.mem_cons_self)
    rw [insertField, hgt]
    exact congrArg ((l, w) :: ·) (ih fun x hx => h x (List.mem_cons_of_mem _ hx))

theorem perm_insertField (h : k ∉ fields.map Prod.fst) :
    (insertField k v fields).Perm ((k, v) :: fields) := by
  induction fields with
  | nil => exact .refl _
  | cons y fields ih =>
    obtain ⟨l, w⟩ := y
    obtain ⟨hkl, hk⟩ := not_or.mp (List.mem_cons.not.mp h)
    rw [insertField]
    split
    · exact .refl _
    · next heq => exact absurd (Std.compare_eq_iff_eq.mp heq) hkl
    · exact ((ih hk).cons (l, w)).trans (.swap (k, v) (l, w) fields)

theorem perm_sortedFields : {fields : List (String × Json)} → (fields.map Prod.fst).Nodup →
    (sortedFields fields).Perm (fields.map fun x => (x.1, x.2.sorted))
  | [], _ => .refl _
  | (k, v) :: fields, h => by
    obtain ⟨hk, hfields⟩ := List.nodup_cons.mp h
    have ih := perm_sortedFields hfields
    have hnames : ((sortedFields fields).map Prod.fst).Perm (fields.map Prod.fst) := by
      simpa [Function.comp_def] using ih.map Prod.fst
    exact (perm_insertField fun hmem => hk (hnames.mem_iff.mp hmem)).trans (ih.cons _)

/-! ## What a scan can give -/

namespace Scan

variable {α β : Type} {s : Scan α} {P : α → Prop} {Q : β → Prop}

/-- Whatever the scan takes from a text has the property. -/
def Gives (s : Scan α) (P : α → Prop) : Prop :=
  ∀ cs a rest, s.run cs = .ok (a, rest) → P a

theorem gives_true (s : Scan α) : s.Gives fun _ => True :=
  fun _ _ _ _ => trivial

theorem gives_pure {a : α} (h : P a) : (pure a : Scan α).Gives P := by
  intro cs b rest hrun
  cases hrun
  exact h

theorem gives_throw (e : Error) : (throw e : Scan α).Gives P := by
  intro cs a rest hrun
  cases hrun

theorem Gives.bind {f : α → Scan β} (hs : s.Gives P) (hf : ∀ a, P a → (f a).Gives Q) :
    (s >>= f).Gives Q := by
  intro cs b rest hrun
  rw [StateT.run_bind] at hrun
  cases h : s.run cs with
  | error e =>
    rw [h] at hrun
    cases hrun
  | ok x =>
    rw [h] at hrun
    exact hf x.1 (hs cs x.1 x.2 h) x.2 b rest hrun

theorem Gives.map {f : α → β} (hs : s.Gives P) (hf : ∀ a, P a → Q (f a)) : (f <$> s).Gives Q := by
  rw [map_eq_pure_bind]
  exact hs.bind fun a ha => gives_pure (hf a ha)

theorem Gives.ite {c : Prop} [Decidable c] {t : Scan α} (hs : s.Gives P) (ht : t.Gives P) :
    (if c then s else t).Gives P := by
  split
  · exact hs
  · exact ht

end Scan

open Text Scan

theorem gives_digits : digits.Gives IsDigits := by
  refine (gives_true get).bind fun cs _ => ?_
  have hall : ∀ c ∈ cs.takeWhile Char.isDigit, c.isDigit := fun c hc => List.mem_takeWhile_imp hc
  split
  · exact gives_throw _
  · next ds hds =>
    refine (gives_true _).bind fun _ _ => gives_pure ⟨hds, hall⟩

theorem gives_wholeDigits :
    wholeDigits.Gives fun ds => IsDigits ds ∧ ∀ c cs, ds ≠ '0' :: c :: cs := by
  refine gives_digits.bind fun ds hds => ?_
  split
  · exact gives_throw _
  · next hleading => exact gives_pure ⟨hds, fun c cs h => hleading c cs h⟩

theorem gives_fractionDigits : fractionDigits.Gives fun x => ∀ ds ∈ x, IsDigits ds := by
  refine (gives_true get).bind fun cs _ => ?_
  split
  · refine (gives_true _).bind fun _ _ => gives_digits.map fun ds hds => ?_
    simpa using hds
  · exact gives_pure (by simp)

theorem gives_exponentDigits : exponentDigits.Gives fun x => ∀ y ∈ x, IsDigits y.2 := by
  have hsome (negative : Bool) (rest : List Char) : Gives (do
      set rest
      return some (negative, ← digits)) fun x => ∀ y ∈ x, IsDigits y.2 :=
    (gives_true _).bind fun _ _ => gives_digits.bind fun ds hds => gives_pure (by simpa using hds)
  refine (gives_true get).bind fun cs _ => ?_
  split
  · split
    · split
      · exact hsome true _
      · exact hsome false _
      · exact hsome false _
    · exact gives_pure (by simp)
  · exact gives_pure (by simp)

theorem gives_numberParts : numberParts.Gives NumberParts.Regular := by
  refine (gives_true get).bind fun cs _ => ?_
  have hunsigned (negative : Bool) : Gives (do
      let whole ← wholeDigits
      let fraction ← fractionDigits
      let exponent ← exponentDigits
      pure ⟨negative, whole, fraction, exponent⟩) NumberParts.Regular :=
    gives_wholeDigits.bind fun whole hwhole => gives_fractionDigits.bind fun fraction hfraction =>
      gives_exponentDigits.bind fun exponent hexponent =>
        gives_pure ⟨hwhole.1, hwhole.2, hfraction, hexponent⟩
  dsimp only
  split
  · exact (gives_true _).bind fun _ _ => hunsigned _
  · exact hunsigned _

theorem numberOfText_eq_ok {s text : String} (h : numberOfText s = .ok text) :
    ∃ p : NumberParts, p.Regular ∧ text = p.text := by
  unfold numberOfText at h
  split at h
  · cases h
  · split at h
    · split at h
      · next p hp =>
        exact ⟨p, gives_numberParts _ p [] hp, (Except.ok.inj h).symm⟩
      · cases h
      · cases h
    · cases h

theorem gives_items {α : Type} {item : Scan α} {P : α → Prop} (h : item.Gives P) :
    (items item).Gives fun as => ∀ a ∈ as, P a := by
  have hupTo (fuel : Nat) (first : Bool) :
      (itemsUpTo item fuel first).Gives fun as => ∀ a ∈ as, P a := by
    induction fuel generalizing first with
    | zero => exact gives_throw _
    | succ fuel ih =>
      refine (gives_true _).bind fun more _ => ?_
      split
      · refine h.bind fun a ha => (ih false).bind fun as has => gives_pure ?_
        exact List.forall_mem_cons.mpr ⟨ha, has⟩
      · exact gives_pure (by simp)
  exact (gives_true get).bind fun cs _ => hupTo _ true

theorem gives_foldFields {σ : Type} {field : σ → String → Scan σ} {P : σ → Prop}
    (h : ∀ s name, P s → (field s name).Gives P) {s : σ} (hs : P s) (first : Bool) :
    (foldFields field first s).Gives P := by
  have hupTo (fuel : Nat) (first : Bool) (s : σ) (hs : P s) :
      (foldFieldsUpTo field fuel first s).Gives P := by
    induction fuel generalizing first s with
    | zero => exact gives_throw _
    | succ fuel ih =>
      refine (gives_true _).bind fun more _ => ?_
      split
      · exact (gives_true _).bind fun name _ => (h s name hs).bind fun s' hs' => ih false s' hs'
      · exact gives_pure hs
  exact (gives_true get).bind fun cs _ => hupTo _ first s hs

theorem Formed.insertField (hv : v.Formed) (h : (Json.object fields).Formed)
    (hempty : fields = [] → k ≠ numberKey) :
    (Json.object (Json.insertField k v fields)).Formed := by
  cases h with
  | object sorted named hfields =>
    refine .object (pairwise_insertField sorted) (map_insertField_ne named hempty) fun x hx => ?_
    rcases mem_insertField hx with rfl | hx
    · exact hv
    · exact hfields x hx

/-- Reads the next field of an object and puts it among those before it. -/
def addField (embedded : String → Except Error Json) (levels : Nat)
    (before : List (String × Json)) (name : String) : Json.Scan (List (String × Json)) := do
  colon
  return insertField name (← valueWith embedded levels) before

theorem gives_addField {embedded : String → Except Error Json} {levels : Nat}
    (h : (valueWith embedded levels).Gives Formed) (before : List (String × Json)) (name : String)
    (hbefore : (object before).Formed) (hempty : before = [] → name ≠ numberKey) :
    (addField embedded levels before name).Gives fun fs => (object fs).Formed ∧ fs ≠ [] :=
  (gives_true _).bind fun _ _ => h.bind fun _ hv =>
    gives_pure ⟨hv.insertField hbefore hempty, insertField_ne_nil⟩

theorem gives_valueWith {embedded : String → Except Error Json}
    (hembedded : ∀ s v, embedded s = .ok v → v.Formed) (levels : Nat) :
    (valueWith embedded levels).Gives Formed := by
  induction levels using Nat.strongRecOn with
  | ind levels ih =>
    rw [valueWith.eq_def]
    refine (gives_true _).bind fun next _ => ?_
    split
    · exact gives_throw _
    refine .ite ?null <| .ite ?true <| .ite ?false <| .ite ?number <| .ite ?string <|
      .ite ?array <| .ite ?object (gives_throw _)
    case null =>
      exact (gives_true _).bind fun _ _ => (gives_true _).bind fun _ _ => gives_pure .null
    case true =>
      exact (gives_true _).bind fun _ _ => (gives_true _).bind fun _ _ => gives_pure (.bool true)
    case false =>
      exact (gives_true _).bind fun _ _ => (gives_true _).bind fun _ _ => gives_pure (.bool false)
    case number => exact gives_numberParts.bind fun p hp => gives_pure (.number hp)
    case string =>
      exact (gives_true _).bind fun _ _ => (gives_true _).bind fun s _ => gives_pure (.string s)
    case array =>
      split
      · exact gives_throw _
      · next levels =>
        refine (gives_true _).bind fun _ _ => ?_
        refine (gives_items (ih levels (Nat.lt_succ_self _))).bind fun vs hvs => ?_
        exact (gives_true _).bind fun _ _ => gives_pure (.array hvs)
    case object =>
      split
      · exact gives_throw _
      · next levels =>
        have hadd := gives_addField (ih levels (Nat.lt_succ_self _))
        have hclose (v : Json) (hv : v.Formed) : Gives (do endObject; pure v) Formed :=
          (gives_true _).bind fun _ _ => gives_pure hv
        have hempty : (object []).Formed := .object (by simp) (by simp) (by simp)
        refine (gives_true _).bind fun _ _ => (gives_true _).bind fun more _ => ?_
        refine .ite ((gives_true _).bind fun name _ => ?_) (hclose _ hempty)
        split
        · refine (gives_true _).bind fun _ _ => (gives_true _).bind fun spelled _ => ?_
          split
          · next text htext =>
            obtain ⟨p, hp, rfl⟩ := numberOfText_eq_ok htext
            exact hclose _ (.number hp)
          · exact gives_throw _
        next hname =>
        refine .ite ?raw ?fields
        case raw =>
          refine (gives_true _).bind fun _ _ => (gives_true _).bind fun raw _ => ?_
          split
          · next v hv => exact hclose v (hembedded _ v hv)
          · exact gives_throw _
        case fields =>
          refine (hadd [] name hempty fun _ => hname).bind fun first hfirst => ?_
          have hmore (fs : List (String × Json)) (name : String)
              (hfs : (object fs).Formed ∧ fs ≠ []) :
              (addField embedded levels fs name).Gives fun fs => (object fs).Formed ∧ fs ≠ [] :=
            hadd fs name hfs.1 fun hnil => absurd hnil hfs.2
          have hfields := gives_foldFields hmore hfirst false
          exact (hfields.map (f := object) (Q := Formed) fun _ hfs => hfs.1).bind hclose

theorem formed_of_ofTextWithin (levels : Nat) {s : String} (h : ofTextWithin levels s = .ok v) :
    v.Formed := by
  induction levels generalizing s v with
  | zero => cases h
  | succ levels ih =>
    have hgives : Gives (do let v ← valueWith (ofTextWithin levels) maxDepth; endText; pure v)
        Formed :=
      (gives_valueWith (fun _ _ => ih) maxDepth).bind fun v hv =>
        (gives_true _).bind fun _ _ => gives_pure hv
    rw [ofTextWithin, StateT.run'_eq] at h
    cases hrun : (do let v ← valueWith (ofTextWithin levels) maxDepth; endText; pure v :
        Json.Scan Json).run s.toList with
    | error e =>
      rw [hrun] at h
      cases h
    | ok x =>
      rw [hrun] at h
      cases h
      exact hgives _ x.1 x.2 hrun

/-- The value was read from a text, or from a part of one. -/
def Parsed (v : Json) : Prop :=
  ∃ depth cs rest, (value depth).run cs = .ok (v, rest)

theorem parsed_of_ofText {s : String} (h : ofText s = .ok v) : v.Parsed := by
  rw [ofText, ofTextWithin, StateT.run'_eq, StateT.run_bind] at h
  cases hrun : (valueWith (ofTextWithin s.length) maxDepth).run s.toList with
  | error e =>
    rw [hrun] at h
    cases h
  | ok x =>
    obtain ⟨w, rest⟩ := x
    rw [hrun] at h
    have hvalue : (value maxDepth).run s.toList = .ok (w, rest) := by
      rw [← String.length_toList] at hrun
      rw [value, run_bind_of (s := get) rfl]
      exact hrun
    have hend : ((do endText; pure w : Json.Scan Json).run rest).map Prod.fst = .ok v := h
    rw [StateT.run_bind] at hend
    cases hblank : endText.run rest with
    | error e =>
      rw [hblank] at hend
      cases hend
    | ok y =>
      rw [hblank] at hend
      cases hend
      exact ⟨maxDepth, s.toList, rest, hvalue⟩

theorem Parsed.formed (h : v.Parsed) : v.Formed := by
  obtain ⟨depth, cs, rest, hrun⟩ := h
  have hgives : (value depth).Gives Formed :=
    (gives_true get).bind fun _ _ => gives_valueWith (fun _ _ => formed_of_ofTextWithin _) depth
  exact hgives cs v rest hrun

theorem formed_of_ofText {s : String} (h : ofText s = .ok v) : v.Formed :=
  (parsed_of_ofText h).formed

end EventIndex.Json
