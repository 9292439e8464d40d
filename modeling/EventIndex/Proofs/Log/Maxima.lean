import EventIndex.Proofs.Log.View

/-! # Maxima of deliveries

Events are delivered in any order and any number of times. Those that are positioned after all
deliveries before them are the maxima; the others are late. -/

namespace EventIndex

namespace RawEvent

/-- The event is positioned after all of the others. -/
def After (e : RawEvent) (es : List RawEvent) : Prop :=
  ∀ f ∈ es, f.position < e.position

instance (e : RawEvent) (es : List RawEvent) : Decidable (e.After es) :=
  inferInstanceAs (Decidable (∀ f ∈ es, f.position < e.position))

theorem after_append {e : RawEvent} {es fs : List RawEvent} :
    e.After (es ++ fs) ↔ e.After es ∧ e.After fs := by
  simp [After, or_imp, forall_and]

theorem after_singleton {e f : RawEvent} : e.After [f] ↔ f.position < e.position := by
  simp [After]

end RawEvent

open RawEvent

/-- The events that are after all deliveries before them, those in `before` included. -/
def maxima (before : List RawEvent) : List RawEvent → List RawEvent
  | [] => []
  | e :: es =>
    if e.After before then e :: maxima (before ++ [e]) es else maxima (before ++ [e]) es

/-- The events that are not after all deliveries before them, those in `before` included. -/
def late (before : List RawEvent) : List RawEvent → List RawEvent
  | [] => []
  | e :: es => if e.After before then late (before ++ [e]) es else e :: late (before ++ [e]) es

section Deliveries

variable {before a b es fs : List RawEvent} {e : RawEvent}

theorem maxima_append (before es fs : List RawEvent) :
    maxima before (es ++ fs) = maxima before es ++ maxima (before ++ es) fs := by
  induction es generalizing before with
  | nil => simp [maxima]
  | cons e es ih =>
    simp only [List.cons_append, maxima, ih]
    split <;> simp

theorem maxima_sublist (before es : List RawEvent) : (maxima before es).Sublist es := by
  induction es generalizing before with
  | nil => exact .slnil
  | cons e es ih =>
    simp only [maxima]
    split
    · exact (ih _).cons_cons e
    · exact (ih _).cons e

theorem mem_of_mem_late (h : e ∈ late before es) : e ∈ es := by
  induction es generalizing before with
  | nil => exact h
  | cons f es ih =>
    simp only [late] at h
    split at h
    · exact List.mem_cons_of_mem f (ih h)
    · rcases List.mem_cons.mp h with rfl | h
      · exact List.mem_cons_self
      · exact List.mem_cons_of_mem f (ih h)

/-! ## Only the bound matters -/

theorem maxima_congr (h : ∀ e : RawEvent, e.After a ↔ e.After b) : maxima a es = maxima b es := by
  induction es generalizing a b with
  | nil => rfl
  | cons e es ih =>
    have hnext (f : RawEvent) : f.After (a ++ [e]) ↔ f.After (b ++ [e]) := by
      simp only [after_append, h f]
    simp only [maxima, h e, ih hnext]

theorem late_congr (h : ∀ e : RawEvent, e.After a ↔ e.After b) : late a es = late b es := by
  induction es generalizing a b with
  | nil => rfl
  | cons e es ih =>
    have hnext (f : RawEvent) : f.After (a ++ [e]) ↔ f.After (b ++ [e]) := by
      simp only [after_append, h f]
    simp only [late, h e, ih hnext]

theorem after_append_late (h : ¬ e.After before) (f : RawEvent) :
    f.After (before ++ [e]) ↔ f.After before := by
  obtain ⟨g, hg, hle⟩ : ∃ g ∈ before, e.position ≤ g.position := by
    simpa [After] using h
  rw [after_append, after_singleton]
  constructor
  · exact And.left
  · exact fun hf => ⟨hf, hle.trans_lt (hf g hg)⟩

theorem maxima_cons_of_after (h : e.After before) (es : List RawEvent) :
    maxima before (e :: es) = e :: maxima (before ++ [e]) es := by
  simp only [maxima, h, if_true]

theorem late_cons_of_after (h : e.After before) (es : List RawEvent) :
    late before (e :: es) = late (before ++ [e]) es := by
  simp only [late, h, if_true]

theorem maxima_cons_of_not_after (h : ¬ e.After before) (es : List RawEvent) :
    maxima before (e :: es) = maxima before es := by
  simp only [maxima, h, if_false, maxima_congr (after_append_late h)]

theorem late_cons_of_not_after (h : ¬ e.After before) (es : List RawEvent) :
    late before (e :: es) = e :: late before es := by
  simp only [late, h, if_false, late_congr (after_append_late h)]

theorem maxima_append_before (h : ∀ e ∈ es, e.After before) :
    maxima (before ++ a) es = maxima a es := by
  induction es generalizing a with
  | nil => rfl
  | cons e es ih =>
    obtain ⟨he, hes⟩ := List.forall_mem_cons.mp h
    simp only [maxima, after_append, he, true_and, List.append_assoc, ih hes]

theorem maxima_append_late (h : ¬ e.After (before ++ es)) (fs : List RawEvent) :
    maxima before (es ++ e :: fs) = maxima before (es ++ fs) := by
  rw [maxima_append, maxima_append, maxima_cons_of_not_after h]

/-- The maxima alone have the bound of all deliveries. -/
theorem after_append_maxima (before es : List RawEvent) (f : RawEvent) :
    f.After (before ++ maxima before es) ↔ f.After (before ++ es) := by
  induction es generalizing before with
  | nil => simp [maxima]
  | cons e es ih =>
    rw [List.append_cons before, ← ih]
    by_cases h : e.After before
    · rw [maxima_cons_of_after h, List.append_cons before]
    · rw [maxima_cons_of_not_after h, maxima_congr (after_append_late h), after_append,
        after_append, after_append_late h]

theorem after_maxima (es : List RawEvent) (f : RawEvent) :
    f.After (maxima [] es) ↔ f.After es :=
  after_append_maxima [] es f

/-- Later deliveries are compared with the maxima as with all deliveries. -/
theorem maxima_maxima (ds es : List RawEvent) : maxima (maxima [] ds) es = maxima ds es :=
  maxima_congr (after_maxima ds)

theorem maxima_append_maxima (ds es : List RawEvent) :
    maxima [] ds ++ maxima (maxima [] ds) es = maxima [] (ds ++ es) := by
  rw [maxima_maxima, maxima_append, List.nil_append]

theorem maxima_isPrefix_append (ds es : List RawEvent) : maxima [] ds <+: maxima [] (ds ++ es) :=
  ⟨_, maxima_append_maxima ds es⟩

theorem late_maxima (ds es : List RawEvent) : late (maxima [] ds) es = late ds es :=
  late_congr (after_maxima ds)

theorem maxima_filter {keep : RawEvent → Bool}
    (h : ∀ e ∈ es, keep e = false → ¬ e.After before) :
    maxima before (es.filter keep) = maxima before es := by
  induction es generalizing before with
  | nil => rfl
  | cons e es ih =>
    obtain ⟨he, hes⟩ := List.forall_mem_cons.mp h
    have hnext : ∀ f ∈ es, keep f = false → ¬ f.After (before ++ [e]) := by
      intro f hf hkeep hafter
      exact hes f hf hkeep (after_append.mp hafter).1
    cases hkeep : keep e with
    | true =>
      rw [List.filter_cons_of_pos hkeep]
      simp only [maxima, ih hnext]
    | false =>
      rw [List.filter_cons_of_neg (by simp [hkeep]), maxima_cons_of_not_after (he hkeep), ih hes]

/-- Of events in the order of their positions, the maxima are the first ones at their positions. -/
theorem mem_maxima_iff (h : es.Pairwise fun e f => e.position ≤ f.position) :
    e ∈ maxima before es ↔ e.After before ∧ es.find? (·.position = e.position) = some e := by
  induction es generalizing before with
  | nil => simp [maxima]
  | cons f es ih =>
    obtain ⟨hf, hes⟩ := List.pairwise_cons.mp h
    by_cases hposition : f.position = e.position
    · rw [List.find?_cons_of_pos (by simpa using hposition)]
      by_cases hafter : f.After before
      · rw [maxima_cons_of_after hafter, List.mem_cons, ih hes, after_append, after_singleton]
        constructor
        · rintro (rfl | ⟨⟨-, hlt⟩, -⟩)
          · exact ⟨hafter, rfl⟩
          · exact absurd hposition hlt.ne
        · rintro ⟨-, hfe⟩
          exact .inl (Option.some.inj hfe).symm
      · have hlate : ¬ e.After before := by
          simpa only [After, hposition] using hafter
        rw [maxima_cons_of_not_after hafter, ih hes]
        simp [hlate]
    · have hne : e ≠ f := by
        rintro rfl
        exact hposition rfl
      rw [List.find?_cons_of_neg (by simpa using hposition)]
      by_cases hafter : f.After before
      · rw [maxima_cons_of_after hafter, List.mem_cons, or_iff_right hne, ih hes, after_append,
          after_singleton]
        constructor
        · exact fun ⟨⟨hbefore, _⟩, hfind⟩ => ⟨hbefore, hfind⟩
        · rintro ⟨hbefore, hfind⟩
          have hle : f.position ≤ e.position := hf e (List.mem_of_find?_eq_some hfind)
          exact ⟨⟨hbefore, lt_of_le_of_ne hle hposition⟩, hfind⟩
      · rw [maxima_cons_of_not_after hafter, ih hes]

end Deliveries

namespace Rising

variable {done rest : List RawEvent} {e : RawEvent}

theorem append_maxima (h : Rising done) (es : List RawEvent) : Rising (done ++ maxima done es) := by
  induction es generalizing done with
  | nil => simpa [maxima] using h
  | cons e es ih =>
    by_cases he : e.After done
    · rw [maxima_cons_of_after he, List.append_cons done]
      exact ih (h.append_singleton he)
    · rw [maxima_cons_of_not_after he]
      exact ih h

theorem maxima_eq (h : Rising (done ++ rest)) : maxima done rest = rest := by
  induction rest generalizing done with
  | nil => rfl
  | cons e rest ih =>
    have he : e.After done := fun f hf => h.lt_of_mem_append hf List.mem_cons_self
    rw [maxima_cons_of_after he, ih (by simpa using h)]

theorem not_mem_of_not_after (h : Rising (done ++ rest)) (he : ¬ e.After done) {f : RawEvent}
    (hf : f ∈ rest) : f.position ≠ e.position := by
  obtain ⟨g, hg, hle⟩ : ∃ g ∈ done, e.position ≤ g.position := by
    simpa [After] using he
  exact (hle.trans_lt (h.lt_of_mem_append hg hf)).ne'

theorem mem_append_iff_of_not_after (h : Rising (done ++ rest)) (he : ¬ e.After done) :
    e ∈ done ++ rest ↔ e ∈ done := by
  rw [List.mem_append, or_iff_left]
  exact fun hrest => h.not_mem_of_not_after he hrest rfl

theorem exists_position_iff_of_not_after (h : Rising (done ++ rest)) (he : ¬ e.After done) :
    (∃ f ∈ done ++ rest, f.position = e.position) ↔ ∃ f ∈ done, f.position = e.position := by
  constructor
  · rintro ⟨f, hf, hposition⟩
    rcases List.mem_append.mp hf with hf | hf
    · exact ⟨f, hf, hposition⟩
    · exact absurd hposition (h.not_mem_of_not_after he hf)
  · rintro ⟨f, hf, hposition⟩
    exact ⟨f, List.mem_append_left rest hf, hposition⟩

end Rising

theorem rising_maxima (es : List RawEvent) : Rising (maxima [] es) := by
  have hnil : Rising [] := List.Pairwise.nil
  simpa using hnil.append_maxima es

/-! ## Events that advance the checkpoint -/

/-- The event is after the checkpoint, if there is one. -/
def RawEvent.isAhead (checkpoint : Option Position) (e : RawEvent) : Bool :=
  checkpoint.all (· < e.position)

/-- The events after the checkpoint that are after all others before them. -/
def advancing (checkpoint : Option Position) (es : List RawEvent) : List RawEvent :=
  maxima [] (es.filter (RawEvent.isAhead checkpoint))

section Advancing

variable {checkpoint : Option Position} {e : RawEvent}

theorem RawEvent.isAhead_some {q : Position} : e.isAhead (some q) ↔ q < e.position := by
  simp [isAhead]

theorem RawEvent.isAhead_of_isAhead (h : e.isAhead checkpoint) {f : RawEvent}
    (hf : f.isAhead (some e.position)) : f.isAhead checkpoint := by
  cases checkpoint with
  | none => rfl
  | some q => exact isAhead_some.mpr ((isAhead_some.mp h).trans (isAhead_some.mp hf))

/-- After an event that advances the checkpoint, the others are compared with it. -/
theorem advancing_cons_of_isAhead (h : e.isAhead checkpoint) (es : List RawEvent) :
    advancing checkpoint (e :: es) = e :: advancing (some e.position) es := by
  have hlater : (es.filter (RawEvent.isAhead checkpoint)).filter
      (RawEvent.isAhead (some e.position)) = es.filter (RawEvent.isAhead (some e.position)) := by
    rw [List.filter_filter]
    refine List.filter_congr fun f _ => ?_
    rw [Bool.and_eq_left_iff_imp]
    exact RawEvent.isAhead_of_isAhead h
  have hfirst : ∀ f ∈ es.filter (RawEvent.isAhead (some e.position)), f.After [e] := fun f hf =>
    RawEvent.after_singleton.mpr (RawEvent.isAhead_some.mp (List.of_mem_filter hf))
  have hothers : maxima [e] (es.filter (RawEvent.isAhead checkpoint)) =
      maxima [e] (es.filter (RawEvent.isAhead (some e.position))) := by
    rw [← hlater]
    refine (maxima_filter fun f _ hf hafter => ?_).symm
    exact absurd (RawEvent.isAhead_some.mpr (RawEvent.after_singleton.mp hafter)) (by simp [hf])
  rw [advancing, List.filter_cons_of_pos h, maxima_cons_of_after (by simp [RawEvent.After]),
    List.nil_append, hothers, advancing, ← maxima_append_before (a := []) hfirst, List.append_nil]

theorem advancing_cons_of_not_isAhead (h : ¬ e.isAhead checkpoint) (es : List RawEvent) :
    advancing checkpoint (e :: es) = advancing checkpoint es := by
  rw [advancing, List.filter_cons_of_neg h, advancing]

theorem rising_advancing (checkpoint : Option Position) (es : List RawEvent) :
    Rising (advancing checkpoint es) :=
  rising_maxima _

theorem isAhead_of_mem_advancing {es : List RawEvent} (h : e ∈ advancing checkpoint es) :
    e.isAhead checkpoint :=
  List.of_mem_filter ((maxima_sublist _ _).subset h)

end Advancing

end EventIndex
